import AgentOAuth.Proofs.Authentication

/-!
# How authentication fails

`authenticate` answers every failure with `invalid_client`, but what the methods
do before they come to a verdict can raise something else.  `SecretReadable` and
`AssertionReadable` list what has to be in order for that not to happen; each is
exact (`authenticate_uniform_iff`).  For an assertion that is mostly about what
its signer wrote: `sub` and `kid` are looked up, and after the signature has been
checked, `exp` is converted to a `datetime`, the entries of `aud` are put into a
set, and `jti` is stored.
-/

namespace AgentOAuth

open Effect

/-- Authentication raises nothing but `OAuthError("invalid_client", …, 401)`. -/
def FailsUniformly (s : ServerState) (moment : Moment) (presented : PresentedCredential)
    (method : ClientAuthMethod) : Prop :=
  ∀ e t, (authenticate moment presented method).run s = .error e t → e = authenticationFailed

/-- `datetime.fromtimestamp(v, tz=UTC)` exists. -/
def IsInstant (v : Value) : Prop :=
  ∃ t, v.number? = some t ∧ -2 ^ 63 ≤ t ∧ t < 2 ^ 63 ∧
    minimumInstant ≤ roundMicroseconds t ∧ roundMicroseconds t < endOfInstants

/-- The entries of an `aud` claim. -/
def audienceEntries : Value → List Value
  | .list items => items
  | value => [value]

theorem returns_fromTimestamp {v : Value} : Returns (fromTimestamp v) ↔ IsInstant v := by
  simp only [Returns, fromTimestamp_eq_ok, IsInstant]
  constructor
  · intro h
    obtain ⟨_, t, ht, hlow, hhigh, rfl, hrange⟩ := h
    exact ⟨t, ht, hlow, hhigh, hrange⟩
  · intro h
    obtain ⟨t, ht, hlow, hhigh, hrange⟩ := h
    exact ⟨_, t, ht, hlow, hhigh, rfl, hrange⟩

/-! ## What has to be in order -/

/-- The client's hash, or the placeholder, is one the hasher can read. -/
structure SecretReadable (s : ServerState) (presented : PresentedCredential)
    (hasher : PasswordHasher) : Prop where
  clientId : Storable presented.clientId
  hash : ∀ className, hasher.verify
    (((s.clients.find presented.clientId).bind RegisteredClient.secretHash).getD
      hasher.absentSecretHash) (presented.secret.getD "") ≠ .error (.other className)

namespace PrivateKeyJwt

variable (config : PrivateKeyJwt)

/-- The header of the assertion selects a `kid` of the stored client. -/
def Selects (assertion : String) (client : Option RegisteredClient) (stored : RegisteredClient)
    (kid : String) : Prop :=
  client = some stored ∧ ∃ header, config.jwt.getUnverifiedHeader assertion = .ok header ∧
    acceptableKid header = some kid

/-- The assertion verifies under a key of the stored client. -/
def Decodes (keys : ClientKeyTable) (now : ℚ) (assertion : String)
    (client : Option RegisteredClient) (stored : RegisteredClient) (claims : Dict) : Prop :=
  ∃ kid key publicKey, config.Selects assertion client stored kid ∧
    keys.find (stored.clientId, kid) = some key ∧
      config.jwt.keyOfJwk key.publicJwk = .ok publicKey ∧
        config.jwt.decode decodeOptions publicKey now assertion = .ok claims

/-- The audience of the claims is this server. -/
def Addressed (claims : Dict) : Prop :=
  .str config.issuer ∈ audienceEntries (Dict.get claims "aud") ∨
    .str config.tokenEndpoint ∈ audienceEntries (Dict.get claims "aud")

/-- The claims of a verified assertion can be converted, as far as they are, and its
row can be inserted. -/
structure Convertible (moment : Moment) (claims : Dict) : Prop where
  hashable : ∀ entry ∈ audienceEntries (Dict.get claims "aud"), entry.unhashable = false
  instant : config.Addressed claims → IsInstant (Dict.get claims "exp")
  inserted : config.Addressed claims → ∀ expiresAt,
    fromTimestamp (Dict.get claims "exp") = .ok expiresAt →
      expiresAt - moment.assertionChecked ≤ MAXIMUM_LIFETIME →
        Storable (config.interpreter.str (Dict.get claims "jti")) ∧ moment.claimFails = false

end PrivateKeyJwt

/-- What the assertion names can be looked up, and what it says can be read. -/
structure AssertionReadable (s : ServerState) (presented : PresentedCredential)
    (config : PrivateKeyJwt) (moment : Moment) : Prop where
  clientId : Storable presented.clientId
  kid : ∀ stored kid, config.Selects (presented.assertion.getD "")
    (s.clients.find presented.clientId) stored kid → Storable kid
  key : ∀ stored kid key, config.Selects (presented.assertion.getD "")
    (s.clients.find presented.clientId) stored kid →
      s.clientKeys.find (stored.clientId, kid) = some key →
        ∀ className, config.jwt.keyOfJwk key.publicJwk ≠ .error (.other className)
  claims : ∀ stored claims, config.Decodes s.clientKeys moment.assertionDecoded
    (presented.assertion.getD "") (s.clients.find presented.clientId) stored claims →
      Dict.get claims "iss" = .str stored.clientId → Dict.get claims "sub" = .str stored.clientId →
        config.Convertible moment claims

variable {s : ServerState} {moment : Moment} {presented : PresentedCredential}
  {method : ClientAuthMethod} {hasher : PasswordHasher} {config : PrivateKeyJwt}

/-! ## Authentication raises what its parts raise -/

/-- What `authenticate` raises for a client id that can be looked up. -/
theorem authenticate_eq_error (htext : Storable presented.clientId)
    (hnone : ∀ t, (method.verify moment presented none).run s ≠ .ok true t) {e : Exc}
    {t : ServerState} :
    (authenticate moment presented method).run s = .error e t ↔
      (method.verify moment presented (s.clients.find presented.clientId)).run s = .error e t ∨
        (method.verify moment presented (s.clients.find presented.clientId)).run s = .ok false t ∧
          e = authenticationFailed := by
  have hget : s.clients.get presented.clientId = .ok (s.clients.find presented.clientId) := by
    rw [ClientTable.get, textParameter_eq_ok.mpr htext]
    rfl
  rw [authenticate, run_get_bind, run_lift_bind_of_ok hget, run_bind_eq_error]
  apply or_congr_right
  constructor
  · intro h
    obtain ⟨proved, u, hverify, h⟩ := h
    cases proved with
    | false =>
        rcases run_bind_eq_error.mp h with hraised | ⟨_, _, hpassed, _⟩
        · obtain ⟨hfailed, rfl⟩ := run_lift_eq_error.mp hraised
          exact ⟨hverify, (raiseIf_eq_error.mp hfailed).2.symm⟩
        · exact absurd rfl (raiseIf_eq_ok.mp (run_lift_eq_ok.mp hpassed).1)
    | true =>
        have hpassed : raiseIf (true = false) authenticationFailed = .ok () := if_neg (by simp)
        rw [run_lift_bind_of_ok hpassed] at h
        cases hclient : s.clients.find presented.clientId with
        | none =>
            -- no method proves anything for an unknown client
            rw [hclient] at hverify
            exact absurd hverify (hnone u)
        | some client =>
            rw [hclient] at h
            cases h
  · intro h
    obtain ⟨hverify, rfl⟩ := h
    refine ⟨false, t, hverify, run_bind_eq_error.mpr (.inl ?_)⟩
    exact run_lift_eq_error.mpr ⟨raiseIf_eq_error.mpr ⟨rfl, rfl⟩, rfl⟩

/-- The lookup comes first. -/
theorem authenticate_of_refused {className : String}
    (h : textParameter presented.clientId = .error (.python className)) :
    (authenticate moment presented method).run s = .error (.python className) s := by
  have hlookup : s.clients.get presented.clientId = .error (.python className) := by
    rw [ClientTable.get, h]
    rfl
  rw [authenticate, run_get_bind, run_bind_eq_error]
  exact .inl (run_lift_eq_error.mpr ⟨hlookup, rfl⟩)

/-- So a client id with a lone surrogate, which a caller can write into the `sub`
of an assertion it signs itself, is never refused. -/
theorem authenticate_of_surrogate {text : List CodePoint} (hid : presented.clientId = spell text)
    (hsurrogate : ∃ c ∈ text, c.IsSurrogate) :
    (authenticate moment presented method).run s = .error (.python "UnicodeEncodeError") s := by
  apply authenticate_of_refused
  rw [textParameter, textError?, hid, codePoints_spell, if_pos hsurrogate]

/-- A method that accepts no client that is not stored fails uniformly when the
lookup and the method raise nothing. -/
theorem failsUniformly_iff
    (hnone : ∀ t, (method.verify moment presented none).run s ≠ .ok true t)
    (hraises : ∀ client e t, (method.verify moment presented client).run s = .error e t →
      e ≠ authenticationFailed) :
    FailsUniformly s moment presented method ↔
      Storable presented.clientId ∧
        ∀ e t, (method.verify moment presented (s.clients.find presented.clientId)).run s ≠
          .error e t := by
  constructor
  · intro huniform
    have htext : Storable presented.clientId := by
      by_contra htext
      -- what the driver raises for the client id escapes
      obtain ⟨className, hrefused⟩ := textParameter_eq_error htext
      have hraised : (authenticate moment presented method).run s =
          .error (.python className) s := authenticate_of_refused hrefused
      have := huniform _ _ hraised
      simp [authenticationFailed] at this
    refine ⟨htext, fun e t hverify => ?_⟩
    have hescapes := (authenticate_eq_error htext hnone).mpr (.inl hverify)
    exact hraises _ e t hverify (huniform e t hescapes)
  · rintro ⟨htext, hquiet⟩ e t h
    rcases (authenticate_eq_error htext hnone).mp h with hverify | ⟨_, rfl⟩
    · exact absurd hverify (hquiet e t)
    · rfl

/-! ## By secret -/

theorem ClientSecretPost.verify_eq_error {client : Option RegisteredClient} {e : Exc}
    {t : ServerState} :
    (ClientSecretPost.verify hasher presented client).run s = .error e t ↔
      s = t ∧ ∃ className, e = .python className ∧
        hasher.verify ((client.bind RegisteredClient.secretHash).getD hasher.absentSecretHash)
          (presented.secret.getD "") = .error (.other className) := by
  rw [verify, run_lift_eq_error, verifySecret]
  rcases hasher.verify _ _ with (_ | className) | _ <;> simp [and_comm, eq_comm]

theorem secret_failsUniformly_iff :
    FailsUniformly s moment presented (clientSecretPost hasher) ↔
      SecretReadable s presented hasher := by
  rw [failsUniformly_iff]
  · constructor
    · rintro ⟨htext, hquiet⟩
      refine ⟨htext, fun className hother => ?_⟩
      exact hquiet _ s (ClientSecretPost.verify_eq_error.mpr ⟨rfl, className, rfl, hother⟩)
    · intro h
      refine ⟨h.clientId, fun e t hverify => ?_⟩
      obtain ⟨_, className, _, hother⟩ := ClientSecretPost.verify_eq_error.mp hverify
      exact h.hash className hother
  · intro t hverify
    obtain ⟨_, _, _, hstored, _⟩ := ClientSecretPost.verify_eq_ok_true.mp hverify
    simp at hstored
  · intro client e t hverify
    obtain ⟨_, className, rfl, _⟩ := ClientSecretPost.verify_eq_error.mp hverify
    simp [authenticationFailed]

/-! ## By assertion -/

namespace PrivateKeyJwt

variable {keys : ClientKeyTable} {now decoded checked : ℚ} {assertion : String}
  {client : Option RegisteredClient} {stored : RegisteredClient} {claims : Dict} {row : ReplayRow}

theorem audienceValues_eq (aud : Value) :
    audienceValues aud = if (audienceEntries aud).any Value.unhashable then
      .error (.python "TypeError") else .ok (audienceEntries aud) := by
  cases aud <;> rfl

theorem returns_audienceValues {aud : Value} :
    Returns (audienceValues aud) ↔ ∀ entry ∈ audienceEntries aud, entry.unhashable = false := by
  rw [audienceValues_eq]
  split <;> simp_all

theorem audienceValues_eq_ok {aud : Value} {values : List Value}
    (h : audienceValues aud = .ok values) : values = audienceEntries aud := by
  rw [audienceValues_eq] at h
  split at h
  · simp at h
  · exact (Except.ok.inj h).symm

/-- The claims are compared with the client first, then converted. -/
theorem returns_claimsAreAcceptable :
    Returns (config.claimsAreAcceptable checked claims stored) ↔
      (Dict.get claims "iss" = .str stored.clientId → Dict.get claims "sub" = .str stored.clientId →
        (∀ entry ∈ audienceEntries (Dict.get claims "aud"), entry.unhashable = false) ∧
          (config.Addressed claims → IsInstant (Dict.get claims "exp"))) := by
  unfold claimsAreAcceptable
  split
  · next hother =>
      simp only [returns_ok, true_iff]
      intro hiss hsub
      rcases hother with hother | hother <;> contradiction
  · next hown =>
      rw [not_or, ne_eq, not_not, ne_eq, not_not] at hown
      simp only [hown.1, hown.2, true_implies]
      rw [returns_bind, returns_audienceValues]
      apply and_congr_right
      intro hhashable
      obtain ⟨values, hvalues⟩ := returns_audienceValues.mpr hhashable
      obtain rfl := audienceValues_eq_ok hvalues
      simp only [hvalues, Except.ok.injEq, forall_eq']
      split
      · next hnot =>
          -- not addressed to us: refused before `exp` is read
          have hother : ¬ config.Addressed claims := by
            rintro (hissuer | hendpoint)
            · exact hnot.1 hissuer
            · exact hnot.2 hendpoint
          simp [hother]
      · next hnames =>
          have haddressed : config.Addressed claims := by
            unfold Addressed
            tauto
          rw [returns_bind, returns_fromTimestamp]
          simp [haddressed]

theorem returns_verifySignature (hjwt : config.jwt.RaisesInvalidToken) {key : ClientKey} :
    Returns (config.verifySignature key now assertion) ↔
      ∀ className, config.jwt.keyOfJwk key.publicJwk ≠ .error (.other className) := by
  unfold verifySignature
  cases hkey : config.jwt.keyOfJwk key.publicJwk with
  | error e => cases e <;> simp [bind, Except.bind]
  | ok publicKey =>
      cases hdecode : config.jwt.decode decodeOptions publicKey now assertion with
      | error e =>
          obtain rfl := hjwt.decode _ _ _ _ _ hdecode
          simp [bind, Except.bind, hdecode]
      | ok claims => simp [bind, Except.bind, hdecode]

theorem verifySignature_of_ok {key : ClientKey} {publicKey : PublicKey}
    (hkey : config.jwt.keyOfJwk key.publicJwk = .ok publicKey)
    (hdecode : config.jwt.decode decodeOptions publicKey now assertion = .ok claims) :
    config.verifySignature key now assertion = .ok (some claims) := by
  simp [verifySignature, hkey, hdecode, bind, Except.bind]

/-- An assertion that selects no key is refused without a lookup. -/
theorem decodeAssertion_of_not_selects (hjwt : config.jwt.RaisesInvalidToken)
    (h : ∀ stored kid, ¬ config.Selects assertion client stored kid) :
    config.decodeAssertion keys now assertion client = .ok none := by
  unfold decodeAssertion
  cases hheader : config.jwt.getUnverifiedHeader assertion with
  | error e =>
      obtain rfl := hjwt.header _ _ hheader
      rfl
  | ok header =>
      cases hkid : acceptableKid header with
      | none => simp [exceptInvalidToken, Except.map, bind, Except.bind, hkid, pure, Except.pure]
      | some kid =>
          cases client with
          | none =>
              simp [exceptInvalidToken, Except.map, bind, Except.bind, hkid, pure, Except.pure]
          | some stored => exact absurd ⟨rfl, header, hheader, hkid⟩ (h stored kid)

/-- An assertion that selects a key is verified under it. -/
theorem decodeAssertion_of_selects {kid : String} (h : config.Selects assertion client stored kid) :
    config.decodeAssertion keys now assertion client = (do
      match ← keys.get stored.clientId kid with
      | some key => config.verifySignature key now assertion
      | none => pure none) := by
  obtain ⟨rfl, header, hheader, hkid⟩ := h
  unfold decodeAssertion
  simp only [hheader, exceptInvalidToken, Except.map]
  rw [bind_of_ok rfl]
  generalize hselected : (some header).bind acceptableKid = selected
  obtain rfl : selected = some kid := hselected.symm.trans hkid
  rfl

theorem Selects.unique {stored' : RegisteredClient} {kid kid' : String}
    (h : config.Selects assertion client stored kid)
    (h' : config.Selects assertion client stored' kid') : stored = stored' ∧ kid = kid' := by
  obtain ⟨rfl, header, hheader, hkid⟩ := h
  obtain ⟨hstored, header', hheader', hkid'⟩ := h'
  obtain rfl := Except.ok.inj (hheader.symm.trans hheader')
  exact ⟨Option.some.inj hstored, Option.some.inj (hkid.symm.trans hkid')⟩

/-- Decoding raises when a text cannot be a parameter of the lookup, or the key
found is no key. -/
theorem returns_decodeAssertion (hjwt : config.jwt.RaisesInvalidToken) :
    Returns (config.decodeAssertion keys now assertion client) ↔
      ∀ stored kid, config.Selects assertion client stored kid →
        (Storable stored.clientId ∧ Storable kid) ∧
          ∀ key, keys.find (stored.clientId, kid) = some key →
            ∀ className, config.jwt.keyOfJwk key.publicJwk ≠ .error (.other className) := by
  by_cases hselects : ∃ stored kid, config.Selects assertion client stored kid
  · obtain ⟨stored, kid, hselects⟩ := hselects
    have hlookup : Returns (config.decodeAssertion keys now assertion client) ↔
        (Storable stored.clientId ∧ Storable kid) ∧
          ∀ key, keys.find (stored.clientId, kid) = some key →
            ∀ className, config.jwt.keyOfJwk key.publicJwk ≠ .error (.other className) := by
      rw [decodeAssertion_of_selects hselects, returns_bind, ClientKeyTable.returns_get]
      apply and_congr_right
      intro htext
      obtain ⟨found, hfound⟩ := ClientKeyTable.returns_get.mpr htext
      rw [hfound, ClientKeyTable.get_eq_find hfound]
      simp only [Except.ok.injEq, forall_eq']
      cases found with
      | none => simp
      | some key => simpa using returns_verifySignature hjwt
    rw [hlookup]
    constructor
    · intro h stored' kid' hselects'
      obtain ⟨rfl, rfl⟩ := hselects.unique hselects'
      exact h
    · intro h
      exact h stored kid hselects
  · have hnone : ∀ stored kid, ¬ config.Selects assertion client stored kid :=
      fun stored kid h => hselects ⟨stored, kid, h⟩
    rw [decodeAssertion_of_not_selects hjwt hnone]
    simp [hnone]

theorem decodes_of_decodeAssertion
    (h : config.decodeAssertion keys now assertion client = .ok (some claims)) :
    ∃ stored, client = some stored ∧ config.Decodes keys now assertion client stored claims := by
  obtain ⟨stored, header, kid, key, publicKey, rfl, hheader, hkid, hkey, hpublic, hdecode⟩ :=
    decodeAssertion_eq_ok_some h
  exact ⟨stored, rfl, kid, key, publicKey, ⟨rfl, header, hheader, hkid⟩,
    ClientKeyTable.get_eq_find hkey, hpublic, hdecode⟩

theorem Decodes.decodeAssertion (h : config.Decodes keys now assertion client stored claims)
    (hreturns : Returns (config.decodeAssertion keys now assertion client)) :
    config.decodeAssertion keys now assertion client = .ok (some claims) := by
  obtain ⟨kid, key, publicKey, hselects, hkey, hpublic, hdecode⟩ := h
  rw [decodeAssertion_of_selects hselects] at hreturns ⊢
  obtain ⟨found, hfound⟩ := (returns_bind.mp hreturns).1
  obtain rfl := (ClientKeyTable.get_eq_find hfound).symm.trans hkey
  rw [bind_of_ok hfound]
  exact verifySignature_of_ok hpublic hdecode

theorem replayRow_eq_ok : config.replayRow claims = .ok row ↔
    Dict.get claims "sub" = .str row.clientId ∧
      fromTimestamp (Dict.get claims "exp") = .ok row.expiresAt ∧
        config.interpreter.str (Dict.get claims "jti") = row.jti := by
  simp only [replayRow, bind_eq_ok, pure_eq_ok, Value.text_eq_ok]
  constructor
  · rintro ⟨_, hsub, _, hexp, rfl⟩
    exact ⟨hsub, hexp, rfl⟩
  · rintro ⟨hsub, hexp, hjti⟩
    exact ⟨_, hsub, _, hexp, by rw [hjti]⟩

/-- What is acceptable has a row. -/
theorem returns_replayRow (h : config.claimsAreAcceptable checked claims stored = .ok true) :
    Returns (config.replayRow claims) := by
  obtain ⟨_, hsub, _, expiresAt, hexp, _⟩ := claimsAreAcceptable_eq_ok_true.mp h
  exact ⟨⟨stored.clientId, _, expiresAt⟩, replayRow_eq_ok.mpr ⟨hsub, hexp, rfl⟩⟩

theorem returns_check : Returns (config.check keys decoded checked presented client) ↔
    Returns (config.decodeAssertion keys decoded (presented.assertion.getD "") client) ∧
      ∀ stored claims, client = some stored →
        config.decodeAssertion keys decoded (presented.assertion.getD "") client =
          .ok (some claims) →
            Returns (config.claimsAreAcceptable checked claims stored) := by
  rw [check, returns_bind]
  apply and_congr_right
  intro hreturns
  obtain ⟨claims?, hdecode⟩ := hreturns
  simp only [hdecode, Except.ok.injEq, forall_eq']
  cases claims? with
  | none => simp
  | some claims =>
      cases client with
      | none => simp
      | some stored =>
          simp only [Option.some.injEq]
          rw [returns_bind]
          constructor
          · rintro ⟨h, _⟩ _ _ rfl rfl
            exact h
          · intro h
            refine ⟨h stored claims rfl rfl, fun acceptable hacceptable => ?_⟩
            cases acceptable with
            | false => simp
            | true =>
                rw [if_pos rfl, returns_bind]
                exact ⟨returns_replayRow hacceptable, fun _ _ => returns_pure _⟩

/-- The row an assertion is claimed under. -/
theorem check_eq_ok_some_iff : config.check keys decoded checked presented client = .ok (some row) ↔
    ∃ stored claims, client = some stored ∧
      config.decodeAssertion keys decoded (presented.assertion.getD "") client = .ok (some claims) ∧
        config.claimsAreAcceptable checked claims stored = .ok true ∧
          config.replayRow claims = .ok row := by
  rw [check, bind_eq_ok]
  constructor
  · rintro ⟨claims?, hdecode, h⟩
    split at h
    · next claims stored =>
        obtain ⟨acceptable, hacceptable, h⟩ := bind_eq_ok.mp h
        cases acceptable with
        | false => simp [pure_eq_ok] at h
        | true =>
            rw [if_pos rfl] at h
            obtain ⟨row', hrow, h⟩ := bind_eq_ok.mp h
            obtain rfl : row' = row := by simpa [pure_eq_ok] using h
            exact ⟨stored, claims, rfl, hdecode, hacceptable, hrow⟩
    · simp [pure_eq_ok] at h
  · rintro ⟨stored, claims, rfl, hdecode, hacceptable, hrow⟩
    refine ⟨some claims, hdecode, ?_⟩
    simp only
    rw [bind_of_ok hacceptable, if_pos rfl, bind_of_ok hrow]
    rfl

theorem claimAssertion_quiet :
    (∀ e t, (claimAssertion row).run s ≠ .error e t) ↔ Storable row.clientId ∧ Storable row.jti := by
  rw [claimAssertion, run_atomically_quiet, returns_textParameter_bind, returns_textParameter_bind]
  simp

theorem isFirstUse_quiet : (∀ e t, (isFirstUse moment row).run s ≠ .error e t) ↔
    Storable row.clientId ∧ Storable row.jti ∧ moment.claimFails = false := by
  rw [run_isFirstUse]
  cases moment.claimFails with
  | true => simp
  | false => simpa using claimAssertion_quiet

/-- `verify` raises in its checks, or because its row cannot be written. -/
theorem verify_quiet : (∀ e t, (config.verify moment presented client).run s ≠ .error e t) ↔
    Returns (config.check s.clientKeys moment.assertionDecoded moment.assertionChecked presented
      client) ∧
      ∀ row, config.check s.clientKeys moment.assertionDecoded moment.assertionChecked presented
        client = .ok (some row) →
          Storable row.clientId ∧ Storable row.jti ∧ moment.claimFails = false := by
  rw [verify]
  simp only [run_get_bind]
  cases hcheck : config.check s.clientKeys moment.assertionDecoded moment.assertionChecked presented
      client with
  | error e =>
      simp only [not_returns_error, false_and, iff_false, not_forall, not_not]
      exact ⟨e, s, rfl⟩
  | ok row? =>
      rw [run_lift_bind_of_ok rfl]
      cases row? with
      | none => simp [EStateM.run_pure]
      | some row => simpa using isFirstUse_quiet

/-- Nothing the method raises is an `OAuthError`. -/
theorem raises_check : Raises (fun e => e.error? = none)
    (config.check keys decoded checked presented client) := by
  have htext : ∀ text, Raises (fun e => e.error? = none) (textParameter text) :=
    raises_textParameter fun _ => rfl
  refine Raises.bind (Raises.bind ?_ fun header => ?_) fun claims? => ?_
  · rcases config.jwt.getUnverifiedHeader _ with (_ | _ | _) | _
    · exact raises_ok _
    · exact raises_error rfl
    · exact raises_error rfl
    · exact raises_ok _
  · split
    · refine ((htext _).bind fun _ => (htext _).bind fun _ => raises_pure _).bind fun found => ?_
      split
      · unfold verifySignature
        split
        all_goals first | exact raises_error rfl | exact raises_ok _
      · exact raises_pure _
    · exact raises_pure _
  · split
    · refine Raises.bind ?_ fun acceptable => ?_
      · unfold claimsAreAcceptable
        split
        · exact raises_ok _
        · refine Raises.bind ?_ fun values => ?_
          · rw [audienceValues_eq]
            split
            · exact raises_error rfl
            · exact raises_ok _
          · split
            · exact raises_pure _
            · exact (python_fromTimestamp _).bind fun _ => raises_pure _
      · split
        · exact ((Value.python_text _).bind fun _ => (python_fromTimestamp _).bind
            fun _ => raises_pure _).bind fun _ => raises_pure _
        · exact raises_pure _
    · exact raises_pure _

theorem verify_raises {e : Exc} {t : ServerState}
    (h : (config.verify moment presented client).run s = .error e t) : e.error? = none := by
  rw [verify, run_get_bind] at h
  rcases run_bind_eq_error.mp h with hcheck | ⟨row?, u, _, hclaim⟩
  · exact raises_check e (run_lift_eq_error.mp hcheck).1
  · cases row? with
    | none => cases hclaim
    | some row =>
        have htext : ∀ text, Raises (fun e => e.error? = none) (textParameter text) :=
          raises_textParameter fun _ => rfl
        replace hclaim : (isFirstUse moment row).run u = .error e t := hclaim
        rw [run_isFirstUse] at hclaim
        split at hclaim
        · cases hclaim
          rfl
        · exact ((htext _).bind fun _ => (htext _).bind fun _ => raises_pure _) e
            (run_atomically_eq_error.mp hclaim).1

theorem verify_none_ne (t : ServerState) :
    (config.verify moment presented none).run s ≠ .ok true t := by
  intro hverify
  obtain ⟨_, _, _, hstored, _⟩ := accepted_of_verify hverify
  simp at hstored

/-- Acceptable claims, in the words of `Convertible`. -/
theorem claimsAreAcceptable_iff_addressed :
    config.claimsAreAcceptable checked claims stored = .ok true ↔
      Dict.get claims "iss" = .str stored.clientId ∧ Dict.get claims "sub" = .str stored.clientId ∧
        ((∀ entry ∈ audienceEntries (Dict.get claims "aud"), entry.unhashable = false) ∧
          config.Addressed claims) ∧
        ∃ expiresAt, fromTimestamp (Dict.get claims "exp") = .ok expiresAt ∧
          expiresAt - checked ≤ MAXIMUM_LIFETIME := by
  have haudience : (∃ values, audienceValues (Dict.get claims "aud") = .ok values ∧
      (.str config.issuer ∈ values ∨ .str config.tokenEndpoint ∈ values)) ↔
        (∀ entry ∈ audienceEntries (Dict.get claims "aud"), entry.unhashable = false) ∧
          config.Addressed claims := by
    constructor
    · rintro ⟨values, hvalues, hnames⟩
      obtain rfl := audienceValues_eq_ok hvalues
      exact ⟨returns_audienceValues.mp ⟨_, hvalues⟩, hnames⟩
    · rintro ⟨hhashable, haddressed⟩
      obtain ⟨values, hvalues⟩ := returns_audienceValues.mpr hhashable
      obtain rfl := audienceValues_eq_ok hvalues
      exact ⟨_, hvalues, haddressed⟩
  rw [claimsAreAcceptable_eq_ok_true, haudience]

/-- What is verified without an exception can be read. -/
theorem readable_of_quiet (hjwt : config.jwt.RaisesInvalidToken)
    (htext : Storable presented.clientId)
    (hquiet : ∀ e t, (config.verify moment presented (s.clients.find presented.clientId)).run s ≠
      .error e t) :
    AssertionReadable s presented config moment := by
  rw [verify_quiet, returns_check] at hquiet
  obtain ⟨⟨hdecode, hacceptable⟩, hrow⟩ := hquiet
  have hkeys := (returns_decodeAssertion hjwt).mp hdecode
  refine ⟨htext, fun stored kid hselects => (hkeys stored kid hselects).1.2,
    fun stored kid key hselects => (hkeys stored kid hselects).2 key, ?_⟩
  intro stored claims hdecodes hiss hsub
  have hclaims := hdecodes.decodeAssertion hdecode
  obtain ⟨_, _, _, ⟨hstored, _⟩, _⟩ := hdecodes
  have hreturns := hacceptable stored claims hstored hclaims
  obtain ⟨hhashable, hinstant⟩ := returns_claimsAreAcceptable.mp hreturns hiss hsub
  refine ⟨hhashable, hinstant, fun haddressed expiresAt hexp hlife => ?_⟩
  -- acceptable claims get as far as the row, where the `jti` is read
  have haccepted : config.claimsAreAcceptable moment.assertionChecked claims stored = .ok true :=
    claimsAreAcceptable_iff_addressed.mpr
      ⟨hiss, hsub, ⟨hhashable, haddressed⟩, expiresAt, hexp, hlife⟩
  exact (hrow ⟨stored.clientId, _, expiresAt⟩ (check_eq_ok_some_iff.mpr
    ⟨stored, claims, hstored, hclaims, haccepted, replayRow_eq_ok.mpr ⟨hsub, hexp, rfl⟩⟩)).2

/-- What can be read passes the checks without an exception. -/
theorem returns_check_of_readable (hjwt : config.jwt.RaisesInvalidToken)
    (h : AssertionReadable s presented config moment) :
    Returns (config.check s.clientKeys moment.assertionDecoded moment.assertionChecked presented
      (s.clients.find presented.clientId)) := by
  rw [returns_check, returns_decodeAssertion hjwt]
  refine ⟨fun stored kid hselects => ?_, fun stored claims hstored hclaims => ?_⟩
  · refine ⟨⟨?_, h.kid stored kid hselects⟩, fun key => h.key stored kid key hselects⟩
    rw [(Table.find_eq_some.mp hselects.1).2]
    exact h.clientId
  · rw [returns_claimsAreAcceptable]
    intro hiss hsub
    obtain ⟨stored', hstored', hdecodes⟩ := decodes_of_decodeAssertion hclaims
    obtain rfl := Option.some.inj (hstored.symm.trans hstored')
    have hconvertible := h.claims stored claims hdecodes hiss hsub
    exact ⟨hconvertible.hashable, hconvertible.instant⟩

/-- And its row, if it has one, can be inserted. -/
theorem inserted_of_readable (h : AssertionReadable s presented config moment)
    (hcheck : config.check s.clientKeys moment.assertionDecoded moment.assertionChecked presented
      (s.clients.find presented.clientId) = .ok (some row)) :
    Storable row.clientId ∧ Storable row.jti ∧ moment.claimFails = false := by
  obtain ⟨stored, claims, hstored, hclaims, haccepted, hrow⟩ := check_eq_ok_some_iff.mp hcheck
  obtain ⟨hiss, hsub, ⟨_, haddressed⟩, expiresAt, hexp, hlife⟩ :=
    claimsAreAcceptable_iff_addressed.mp haccepted
  obtain ⟨stored', hstored', hdecodes⟩ := decodes_of_decodeAssertion hclaims
  obtain rfl := Option.some.inj (hstored.symm.trans hstored')
  have hconvertible := h.claims stored claims hdecodes hiss hsub
  obtain ⟨hrowSub, _, hrowJti⟩ := replayRow_eq_ok.mp hrow
  refine ⟨?_, hrowJti ▸ hconvertible.inserted haddressed expiresAt hexp hlife⟩
  have hrowId : stored.clientId = row.clientId := by simpa [hsub] using hrowSub
  rw [← hrowId, (Table.find_eq_some.mp hstored).2]
  exact h.clientId

/-- An assertion is verified without an exception when it can be read, and only
then. -/
theorem verify_quiet_iff (hjwt : config.jwt.RaisesInvalidToken)
    (htext : Storable presented.clientId) :
    (∀ e t, (config.verify moment presented (s.clients.find presented.clientId)).run s ≠
        .error e t) ↔
      AssertionReadable s presented config moment := by
  constructor
  · exact readable_of_quiet hjwt htext
  · intro h
    rw [verify_quiet]
    exact ⟨returns_check_of_readable hjwt h, fun row hcheck => inserted_of_readable h hcheck⟩

end PrivateKeyJwt

theorem assertion_failsUniformly_iff (hjwt : config.jwt.RaisesInvalidToken) :
    FailsUniformly s moment presented (privateKeyJwt config) ↔
      AssertionReadable s presented config moment := by
  rw [failsUniformly_iff PrivateKeyJwt.verify_none_ne]
  · constructor
    · rintro ⟨htext, hquiet⟩
      exact (PrivateKeyJwt.verify_quiet_iff hjwt htext).mp hquiet
    · intro h
      exact ⟨h.clientId, (PrivateKeyJwt.verify_quiet_iff hjwt h.clientId).mpr h⟩
  · rintro client e t hverify rfl
    have hnone := PrivateKeyJwt.verify_raises hverify
    simp [authenticationFailed] at hnone

/-- An assertion that expires later than in five minutes is not accepted. -/
theorem not_accepted_of_far {claims : Dict} {expiresAt : ℚ}
    (hclaims : config.jwt.decodeUnverified (presented.assertion.getD "") = .ok claims)
    (hexp : fromTimestamp (Dict.get claims "exp") = .ok expiresAt)
    (hfar : moment.assertionChecked + MAXIMUM_LIFETIME < expiresAt) (client : RegisteredClient)
    (t : ServerState) :
    (authenticate moment presented (privateKeyJwt config)).run s ≠ .ok client t := by
  intro hauth
  obtain ⟨_, hverify⟩ := authenticate_eq_ok.mp hauth
  obtain ⟨_, row, evidence, _, haccepted, _⟩ := PrivateKeyJwt.accepted_of_verify hverify
  have hcarried := config.jwt.decode_claims haccepted.decode
  obtain rfl := Except.ok.inj (hclaims.symm.trans hcarried)
  obtain rfl := Except.ok.inj (hexp.symm.trans haccepted.expiresAt)
  exact absurd haccepted.lifetime (not_le.mpr (lt_sub_iff_add_lt'.mpr hfar))

namespace Example.UniformRefusal

/-- K signs an assertion whose `exp` is in milliseconds. -/
def millisecondsK : BookEntry where
  token := "M"
  header := assertionK.header
  payload := [("iss", .str "k"), ("sub", .str "k"), ("aud", .str "https://as"),
    ("exp", .int 1000300000000), ("jti", .str "once")]
  signer := ⟨3, 4⟩

def configM : PrivateKeyJwt :=
  { server.assertions with jwt := TokenBook.pyJwt ⟨[millisecondsK], by decide⟩ [(jwkK, ⟨3, 4⟩)] }

def presentedM : PresentedCredential := { presentedK with assertion := some "M" }

end Example.UniformRefusal

/-- **Authentication fails uniformly** when what is presented can be read, and
only then; a readable assertion of more than five minutes is refused as any
other. -/
theorem authenticate_uniform_iff (hjwt : config.jwt.RaisesInvalidToken) :
    (FailsUniformly s moment presented (clientSecretPost hasher) ↔
      SecretReadable s presented hasher) ∧
    (FailsUniformly s moment presented (privateKeyJwt config) ↔
      AssertionReadable s presented config moment) ∧
    (AssertionReadable s presented config moment →
      ∀ claims expiresAt, config.jwt.decodeUnverified (presented.assertion.getD "") = .ok claims →
        fromTimestamp (Dict.get claims "exp") = .ok expiresAt →
          moment.assertionChecked + MAXIMUM_LIFETIME < expiresAt →
            ∃ t, (authenticate moment presented (privateKeyJwt config)).run s =
              .error authenticationFailed t) := by
  refine ⟨secret_failsUniformly_iff, assertion_failsUniformly_iff hjwt, ?_⟩
  intro hreadable claims expiresAt hclaims hexp hfar
  cases hrun : (authenticate moment presented (privateKeyJwt config)).run s with
  | ok client t => exact absurd hrun (not_accepted_of_far hclaims hexp hfar client t)
  | error e t => exact ⟨t, by rw [(assertion_failsUniformly_iff hjwt).mpr hreadable e t hrun]⟩

/-- K's assertion is accepted, so it can be read. -/
theorem authenticate_uniform_iff_presentedK :
    AssertionReadable Example.keyedState Example.presentedK Example.server.assertions
      (Example.momentAt 1000 "jti") := by
  have hjwt : Example.server.assertions.jwt.RaisesInvalidToken := TokenBook.raisesInvalidToken _ _
  obtain ⟨t, hauth⟩ := value?_eq_some.mp
    (show value? ((authenticate (Example.momentAt 1000 "jti") Example.presentedK
      (privateKeyJwt Example.server.assertions)).run Example.keyedState) = some Example.clientK by
        decide +kernel)
  have hsecret : (FailsUniformly Example.keyedState (Example.momentAt 1000 "jti") Example.presentedK
      (clientSecretPost Example.hasher) ↔ _) ∧ _ := authenticate_uniform_iff hjwt
  refine hsecret.2.1.mp fun e u hraised => ?_
  cases hauth.symm.trans hraised

/-- An assertion that is signed by a registered key, and expires far ahead, is
not refused: a `ValueError` escapes. -/
theorem milliseconds_escape :
    let moment := Example.momentAt 1000 "jti"
    let config := Example.UniformRefusal.configM
    let presented := Example.UniformRefusal.presentedM
    config.jwt.RaisesInvalidToken ∧
      config.Decodes Example.keyring moment.assertionDecoded "M" (some Example.clientK)
        Example.clientK Example.UniformRefusal.millisecondsK.payload ∧
      moment.assertionChecked + MAXIMUM_LIFETIME < 1000300000000 ∧
      outcome ((authenticate moment presented (privateKeyJwt config)).run Example.keyedState) =
        .error (.python "ValueError") ∧
      ¬ FailsUniformly Example.keyedState moment presented (privateKeyJwt config) := by
  intro moment config presented
  have hraised : outcome ((authenticate moment presented (privateKeyJwt config)).run
      Example.keyedState) = .error (.python "ValueError") := by
    decide +kernel
  refine ⟨TokenBook.raisesInvalidToken _ _, ?_, by decide +kernel, hraised, ?_⟩
  · exact ⟨"k1", ⟨"k", "k1", Example.jwkK⟩, ⟨3, 4⟩, ⟨rfl, Example.assertionK.header, rfl,
      by decide⟩, rfl, by decide +kernel, by decide +kernel⟩
  · intro huniform
    obtain ⟨t, hrun⟩ := outcome_eq_error.mp hraised
    have hrefused := huniform _ t hrun
    simp [authenticationFailed] at hrefused

end AgentOAuth
