import AgentOAuth.Model.TokenBook

/-!
# Authentication

Who a request may be authenticated as.  `extract_cases` says what each of the
two installed methods has read when it is the one in use, `BySecret` and
`ByAssertion` what it has verified, and `authenticate_sound` that a client is
authenticated in one of these two ways only.
-/

namespace AgentOAuth

open Effect

variable {hasher : PasswordHasher} {config : PrivateKeyJwt} {form : TokenForm}
  {presented : PresentedCredential} {method : ClientAuthMethod} {moment : Moment}
  {s t : ServerState} {client : RegisteredClient}

/-! ## What a form presents -/

theorem ClientSecretPost.extract_eq_ok_none (h : ClientSecretPost.extract form = .ok none) :
    form.present "client_id" = false ∧ form.present "client_secret" = false := by
  unfold ClientSecretPost.extract at h
  split at h
  · next habsent => simpa using habsent
  · simp only [bind_eq_ok, pure_eq_ok, reduceCtorEq, and_false, exists_false] at h

theorem ClientSecretPost.extract_eq_ok_some
    (h : ClientSecretPost.extract form = .ok (some presented)) :
    ∃ secret, form.get "client_id" = some presented.clientId ∧
      form.get "client_secret" = some secret ∧ presented.secret = some secret ∧
        presented.method = ClientSecretPost.name ∧ secret ≠ "" := by
  unfold ClientSecretPost.extract at h
  split at h
  · simp at h
  · simp only [bind_eq_ok, pure_eq_ok, Option.some.injEq, TokenForm.require_eq_ok] at h
    obtain ⟨clientId, ⟨hid, _⟩, secret, ⟨hsecret, hne⟩, rfl⟩ := h
    exact ⟨secret, hid, hsecret, rfl, rfl, hne⟩

theorem PrivateKeyJwt.extract_eq_ok_none (h : config.extract form = .ok none) :
    form.present "client_assertion" = false ∧ form.present "client_assertion_type" = false := by
  unfold PrivateKeyJwt.extract at h
  split at h
  · next habsent => simpa using habsent
  · simp only [bind_eq_ok, pure_eq_ok, reduceCtorEq, and_false, exists_false] at h

/-- The client is chosen by the unverified `sub` of the assertion. -/
theorem PrivateKeyJwt.extract_eq_ok_some (h : config.extract form = .ok (some presented)) :
    ∃ assertion, form.get "client_assertion" = some assertion ∧
      form.get "client_assertion_type" = some ASSERTION_TYPE ∧
        config.unverifiedSubject assertion = .ok presented.clientId ∧
          presented.assertion = some assertion ∧ presented.secret = none ∧
            presented.method = PrivateKeyJwt.name ∧ assertion ≠ "" := by
  unfold PrivateKeyJwt.extract at h
  split at h
  · simp at h
  · simp only [bind_eq_ok, pure_eq_ok, Option.some.injEq, raiseIf_eq_ok, ne_eq, not_not,
      TokenForm.require_eq_ok] at h
    obtain ⟨_, ⟨htype, _⟩, _, rfl, assertion, ⟨hassertion, hne⟩, claimed, hclaimed, _, _, rfl⟩ := h
    exact ⟨assertion, hassertion, htype, hclaimed, rfl, rfl, rfl, hne⟩

/-- Exactly one of the two methods is in use, and the form has no field of the
other one. -/
theorem extract_cases
    (h : (defaultClientAuthRegistry hasher config).extract form = .ok (presented, method)) :
    method = clientSecretPost hasher ∧ ClientSecretPost.extract form = .ok (some presented) ∧
        config.extract form = .ok none ∨
      method = privateKeyJwt config ∧ config.extract form = .ok (some presented) ∧
        ClientSecretPost.extract form = .ok none := by
  obtain ⟨hmem, hextract, hothers⟩ := ClientAuthRegistry.extract_eq_ok h
  have hne : clientSecretPost hasher ≠ privateKeyJwt config := fun heq =>
    absurd (congrArg ClientAuthMethod.name heq)
      (show ClientSecretPost.name ≠ PrivateKeyJwt.name by decide)
  simp only [defaultClientAuthRegistry, Table.mem_iff, List.mem_cons, List.not_mem_nil, or_false,
    forall_eq_or_imp, forall_eq] at hmem hothers
  rcases hmem with rfl | rfl
  · exact .inl ⟨rfl, hextract, hothers.2 hne.symm⟩
  · exact .inr ⟨rfl, hextract, hothers.1 hne⟩

/-! ## What a method has verified -/

/-- The client is proved by its secret, and nothing else is presented. -/
structure BySecret (hasher : PasswordHasher) (form : TokenForm) (presented : PresentedCredential)
    (client : RegisteredClient) : Prop where
  method : presented.method = ClientSecretPost.name
  noAssertion : form.present "client_assertion" = false
  noAssertionType : form.present "client_assertion_type" = false
  clientId : form.get "client_id" = some presented.clientId
  secret : ∃ secret hash, form.get "client_secret" = some secret ∧ client.secretHash = some hash ∧
    hasher.verify hash secret = .ok ()

/-- The client is proved by an assertion, which is used up, and no secret is
presented. -/
structure ByAssertion (config : PrivateKeyJwt) (form : TokenForm) (moment : Moment)
    (s t : ServerState) (presented : PresentedCredential) (client : RegisteredClient)
    (assertion : String) (row : ReplayRow) (evidence : PrivateKeyJwt.Evidence) : Prop where
  method : presented.method = PrivateKeyJwt.name
  noSecret : form.present "client_secret" = false
  presents : form.get "client_assertion" = some assertion
  accepted : PrivateKeyJwt.Accepted config s.clientKeys moment.assertionDecoded
    moment.assertionChecked assertion client row evidence
  signed : config.jwt.signedBy evidence.publicKey assertion
  alive : moment.assertionDecoded < row.expiresAt
  lifetime : row.expiresAt ≤ moment.assertionChecked + MAXIMUM_LIFETIME
  unused : s.assertionJtis.find (client.clientId, row.jti) = none
  used : t.assertionJtis.find (client.clientId, row.jti) = some row

theorem ClientSecretPost.verify_eq_ok_true {stored : Option RegisteredClient} :
    (ClientSecretPost.verify hasher presented stored).run s = .ok true t ↔
      s = t ∧ ∃ client hash, stored = some client ∧ client.secretHash = some hash ∧
        hasher.verify hash (presented.secret.getD "") = .ok () := by
  rw [ClientSecretPost.verify, run_lift_eq_ok, verifySecret_eq_ok_true]
  cases stored with
  | none => simp
  | some client => simp [and_comm]

/-- An assertion is accepted, and its row was free and is taken. -/
theorem PrivateKeyJwt.accepted_of_verify {stored : Option RegisteredClient}
    (h : (config.verify moment presented stored).run s = .ok true t) :
    ∃ client row evidence, stored = some client ∧
      Accepted config s.clientKeys moment.assertionDecoded moment.assertionChecked
        (presented.assertion.getD "") client row evidence ∧
      s.assertionJtis.find row.primaryKey = none ∧ t.assertionJtis.find row.primaryKey = some row := by
  obtain ⟨row, hcheck, _, hclaim⟩ := verify_eq_ok_true.mp h
  obtain ⟨client, evidence, hstored, haccepted⟩ := check_eq_ok_some hcheck
  obtain ⟨_, _, written, hinsert, rfl⟩ := claimAssertion_eq_ok_true.mp hclaim
  exact ⟨client, row, evidence, hstored, haccepted, (Table.insert_eq_some.mp hinsert).1,
    Table.find_insert_self hinsert⟩

/-- **A method never accepts a client that is not stored**, so `authenticate`
does not reach its assertion. -/
theorem verify_none
    (h : (defaultClientAuthRegistry hasher config).extract form = .ok (presented, method)) :
    (method.verify moment presented none).run s ≠ .ok true t := by
  intro hverify
  rcases extract_cases h with ⟨rfl, _⟩ | ⟨rfl, _⟩
  · obtain ⟨_, _, _, hstored, _⟩ := ClientSecretPost.verify_eq_ok_true.mp hverify
    simp at hstored
  · obtain ⟨_, _, _, hstored, _⟩ := PrivateKeyJwt.accepted_of_verify hverify
    simp at hstored

/-- **Authentication is sound.**  The client is the stored row of the extracted
`client_id`, and either its secret or an assertion signed by one of its keys
was presented, and nothing of the other kind; a method accepts no client that
is not stored; and a client without a secret hash is authenticated by an
assertion only. -/
theorem authenticate_sound
    (hextract : (defaultClientAuthRegistry hasher config).extract form = .ok (presented, method))
    (hauth : (authenticate moment presented method).run s = .ok client t) :
    s.clients.find presented.clientId = some client ∧
    (BySecret hasher form presented client ∨
      ∃ assertion row evidence,
        ByAssertion config form moment s t presented client assertion row evidence) ∧
    (∀ s' u, (method.verify moment presented none).run s' ≠ .ok true u) ∧
    (client.secretHash = none → presented.method = PrivateKeyJwt.name ∧ presented.secret = none) := by
  obtain ⟨hstored, hverify⟩ := authenticate_eq_ok.mp hauth
  obtain ⟨hmem, hid⟩ := ClientTable.get_eq_ok_some hstored
  refine ⟨Table.find_eq_some.mpr ⟨hmem, hid⟩, ?_⟩
  -- the method in use, and what the other one found missing
  rcases extract_cases hextract with ⟨rfl, hsecret, hassertion⟩ | ⟨rfl, hassertion, hsecret⟩
  · obtain ⟨secret, hformId, hformSecret, hpresented, hmethod, _⟩ :=
      ClientSecretPost.extract_eq_ok_some hsecret
    obtain ⟨hnoAssertion, hnoType⟩ := PrivateKeyJwt.extract_eq_ok_none hassertion
    obtain ⟨_, _, hash, hsome, hhash, hverified⟩ := ClientSecretPost.verify_eq_ok_true.mp hverify
    obtain rfl := Option.some.inj hsome
    rw [hpresented, Option.getD_some] at hverified
    refine ⟨.inl ⟨hmethod, hnoAssertion, hnoType, hformId, secret, hash, hformSecret, hhash,
      hverified⟩, fun _ _ => verify_none hextract, fun hnone => ?_⟩
    simp [hnone] at hhash
  · obtain ⟨assertion, hformAssertion, _, _, hpresented, hno, hmethod, _⟩ :=
      PrivateKeyJwt.extract_eq_ok_some hassertion
    obtain ⟨_, hnoSecret⟩ := ClientSecretPost.extract_eq_ok_none hsecret
    obtain ⟨_, row, evidence, hsome, haccepted, hfree, htaken⟩ :=
      PrivateKeyJwt.accepted_of_verify hverify
    obtain rfl := Option.some.inj hsome
    rw [hpresented, Option.getD_some] at haccepted
    -- the row is claimed under the verified `sub`, which is the client's own id
    have hkey : row.primaryKey = (client.clientId, row.jti) := by
      rw [ReplayRow.primaryKey, haccepted.rowClientId]
    refine ⟨.inr ⟨assertion, row, evidence, hmethod, hnoSecret, hformAssertion, haccepted,
      config.jwt.decode_signed haccepted.decode,
      haccepted.decoded_lt moment.assertionDecoded_nonneg, sub_le_iff_le_add'.mp haccepted.lifetime,
      hkey ▸ hfree, hkey ▸ htaken⟩, fun _ _ => verify_none hextract, fun _ => ⟨hmethod, hno⟩⟩

theorem Example.extract_assertionForm :
    Example.server.authMethods.extract Example.assertionForm =
      .ok (Example.presentedK, privateKeyJwt Example.server.assertions) := by
  have hpresented : (Example.server.authMethods.extract Example.assertionForm).toOption.map Prod.fst =
      some Example.presentedK := by
    decide +kernel
  cases hextract : Example.server.authMethods.extract Example.assertionForm with
  | error e => simp [hextract, Except.toOption] at hpresented
  | ok found =>
      obtain ⟨presented, method⟩ := found
      obtain rfl : presented = Example.presentedK := by
        simpa [hextract, Except.toOption] using hpresented
      rcases extract_cases hextract with ⟨_, hsecret, _⟩ | ⟨rfl, _⟩
      · obtain ⟨_, hid, _⟩ := ClientSecretPost.extract_eq_ok_some hsecret
        exact absurd hid (by decide +kernel)
      · rfl

theorem authenticate_sound_presentedK :
    ∃ t, (authenticate (Example.momentAt 1000 "jti") Example.presentedK
        (privateKeyJwt Example.server.assertions)).run Example.keyedState = .ok Example.clientK t ∧
      (BySecret Example.hasher Example.assertionForm Example.presentedK Example.clientK ∨
        ∃ assertion row evidence,
          ByAssertion Example.server.assertions Example.assertionForm (Example.momentAt 1000 "jti")
            Example.keyedState t Example.presentedK Example.clientK assertion row evidence) := by
  obtain ⟨t, hauth⟩ := value?_eq_some.mp
    (show value? ((authenticate (Example.momentAt 1000 "jti") Example.presentedK
      (privateKeyJwt Example.server.assertions)).run Example.keyedState) = some Example.clientK by
        decide +kernel)
  exact ⟨t, hauth, (authenticate_sound Example.extract_assertionForm hauth).2.1⟩

end AgentOAuth
