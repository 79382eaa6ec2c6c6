import AgentOAuth.Proofs.Authentication

/-!
# A `client_id` beside a client assertion

`PrivateKeyJwt.extract` allows a `client_id` in the form if it agrees with the
assertion.  The registry asks every method, and for `ClientSecretPost` a form
with a `client_id` and no secret is half an attempt of its own.  So the form is
refused for the missing secret, whether the value agrees or not
(`form_client_id_never_agrees`).
-/

namespace AgentOAuth

open Effect

/-- What `client_secret_post` says to a form with a `client_id` alone. -/
def missingClientSecret : Exc :=
  .oauth "invalid_request" "missing required parameter: client_secret" 400

/-- What `private_key_jwt` says to a form with another `client_id`. -/
def clientIdMismatch : Exc :=
  .oauth "invalid_request" "client_id does not match the client assertion" 400

/-- The form with one more field, wherever it stands in the body. -/
structure AddsClientId (form : TokenForm) (value : String) (form' : TokenForm) : Prop where
  clientId : form'.get "client_id" = some value
  others : ∀ name, name ≠ "client_id" → form'.get name = form.get name

/-- A `client_id` that agrees with the assertion changes nothing, and any other
is refused because it does not. -/
structure FormClientIdAgrees (methods : ClientAuthRegistry) (form : TokenForm)
    (presented : PresentedCredential) (method : ClientAuthMethod) : Prop where
  agreeing : ∀ form', AddsClientId form presented.clientId form' →
    methods.extract form' = .ok (presented, method)
  others : ∀ value form', value ≠ "" → value ≠ presented.clientId →
    AddsClientId form value form' → methods.extract form' = .error clientIdMismatch

variable {hasher : PasswordHasher} {config : PrivateKeyJwt} {form form' : TokenForm}
  {presented : PresentedCredential} {method : ClientAuthMethod} {value : String}

theorem exists_addsClientId (form : TokenForm) (value : String) :
    ∃ form', AddsClientId form value form' := by
  refine ⟨⟨("client_id", value) :: form.fields⟩, by simp [TokenForm.get], ?_⟩
  intro name hname
  simp [TokenForm.get, List.lookup_cons, beq_false_of_ne hname]

/-- A `client_id` without a secret is half an attempt. -/
theorem ClientSecretPost.extract_half (hid : form.get "client_id" = some value) (hne : value ≠ "")
    (hsecret : form.get "client_secret" = none) :
    ClientSecretPost.extract form = .error missingClientSecret := by
  have hpresent : form.present "client_id" = true := by simp [TokenForm.present, hid]
  have hrequired : form.require "client_id" = .ok value := TokenForm.require_eq_ok.mpr ⟨hid, hne⟩
  have hmissing : form.require "client_secret" = .error missingClientSecret := by
    rw [TokenForm.require, hsecret]
    rfl
  rw [extract, hpresent, if_neg (by simp), bind_of_ok hrequired, hmissing]
  rfl

/-- An assertion selects a client by name. -/
theorem PrivateKeyJwt.unverifiedSubject_ne {assertion subject : String}
    (h : config.unverifiedSubject assertion = .ok subject) : subject ≠ "" := by
  obtain ⟨claims, _, hsubject⟩ := bind_eq_ok.mp h
  split at hsubject
  · next text _ =>
      split at hsubject
      · simp at hsubject
      · next hne => exact pure_eq_ok.mp hsubject ▸ hne
  · simp at hsubject

theorem assertion_of_extract
    (hextract : (defaultClientAuthRegistry hasher config).extract form = .ok (presented, method))
    (hmethod : presented.method = PrivateKeyJwt.name) :
    config.extract form = .ok (some presented) ∧ ClientSecretPost.extract form = .ok none := by
  rcases extract_cases hextract with ⟨_, hsecret, _⟩ | ⟨_, hassertion, hsecret⟩
  · obtain ⟨_, _, _, _, hname, _⟩ := ClientSecretPost.extract_eq_ok_some hsecret
    rw [hmethod] at hname
    exact absurd hname (by decide)
  · exact ⟨hassertion, hsecret⟩

/-- The registry passes on what the first method raises. -/
theorem extract_of_addsClientId
    (hextract : (defaultClientAuthRegistry hasher config).extract form = .ok (presented, method))
    (hmethod : presented.method = PrivateKeyJwt.name) (hform : AddsClientId form value form')
    (hne : value ≠ "") :
    (defaultClientAuthRegistry hasher config).extract form' = .error missingClientSecret := by
  obtain ⟨_, hsecret⟩ := assertion_of_extract hextract hmethod
  obtain ⟨_, habsent⟩ := ClientSecretPost.extract_eq_ok_none hsecret
  have hnone : form'.get "client_secret" = none := by
    rw [hform.others "client_secret" (by decide)]
    simpa [TokenForm.present] using habsent
  have hfirst := ClientSecretPost.extract_half hform.clientId hne hnone
  exact bind_eq_error.mpr (.inl (bind_eq_error.mpr (.inl hfirst)))

/-- **A form `client_id` never agrees.**  Whatever credential the registry
extracts from a form with an assertion, the same form with any `client_id` is
refused for the missing secret: one that agrees is not accepted, and one that
does not is not refused as a mismatch. -/
theorem form_client_id_never_agrees
    (hextract : (defaultClientAuthRegistry hasher config).extract form = .ok (presented, method))
    (hmethod : presented.method = PrivateKeyJwt.name) :
    (∀ value form', value ≠ "" → AddsClientId form value form' →
      (defaultClientAuthRegistry hasher config).extract form' = .error missingClientSecret) ∧
    (∀ form', AddsClientId form presented.clientId form' →
      (defaultClientAuthRegistry hasher config).extract form' ≠ .ok (presented, method)) ∧
    (∀ value form', value ≠ "" → AddsClientId form value form' →
      (defaultClientAuthRegistry hasher config).extract form' ≠ .error clientIdMismatch) ∧
    ¬ FormClientIdAgrees (defaultClientAuthRegistry hasher config) form presented method := by
  have hrefused : ∀ value form', value ≠ "" → AddsClientId form value form' →
      (defaultClientAuthRegistry hasher config).extract form' = .error missingClientSecret :=
    fun value form' hne hform => extract_of_addsClientId hextract hmethod hform hne
  obtain ⟨assertion, _, _, hsubject, _⟩ :=
    PrivateKeyJwt.extract_eq_ok_some (assertion_of_extract hextract hmethod).1
  have hclient : presented.clientId ≠ "" := PrivateKeyJwt.unverifiedSubject_ne hsubject
  have hagreeing : ∀ form', AddsClientId form presented.clientId form' →
      (defaultClientAuthRegistry hasher config).extract form' ≠ .ok (presented, method) := by
    intro form' hform
    rw [hrefused _ form' hclient hform]
    simp
  refine ⟨hrefused, hagreeing, ?_, ?_⟩
  · intro value form' hne hform
    rw [hrefused value form' hne hform, ne_eq, Except.error.injEq]
    decide
  · intro hagrees
    obtain ⟨form', hform⟩ := exists_addsClientId form presented.clientId
    exact hagreeing form' hform (hagrees.agreeing form' hform)

theorem form_client_id_never_agrees_presentedK :
    Example.server.authMethods.extract Example.assertionForm =
        .ok (Example.presentedK, privateKeyJwt Example.server.assertions) ∧
      ¬ FormClientIdAgrees Example.server.authMethods Example.assertionForm Example.presentedK
        (privateKeyJwt Example.server.assertions) :=
  ⟨Example.extract_assertionForm,
    (form_client_id_never_agrees Example.extract_assertionForm rfl).2.2.2⟩

/-- K's assertion with `client_id=k` beside it is refused for a missing secret. -/
theorem agreeing_client_id_refused :
    Example.server.authMethods.extract Example.assertionForm =
        .ok (Example.presentedK, privateKeyJwt Example.server.assertions) ∧
      AddsClientId Example.assertionForm "k"
        ⟨Example.assertionForm.fields ++ [("client_id", "k")]⟩ ∧
      Example.presentedK.clientId = "k" ∧
      Example.server.authMethods.extract
          ⟨Example.assertionForm.fields ++ [("client_id", "k")]⟩ = .error missingClientSecret ∧
      ¬ FormClientIdAgrees Example.server.authMethods Example.assertionForm Example.presentedK
        (privateKeyJwt Example.server.assertions) := by
  have hform : AddsClientId Example.assertionForm "k"
      ⟨Example.assertionForm.fields ++ [("client_id", "k")]⟩ := by
    refine ⟨rfl, fun name hname => ?_⟩
    simp [TokenForm.get, List.lookup_append, List.lookup_cons, beq_false_of_ne hname]
  have hrefused := extract_of_addsClientId Example.extract_assertionForm rfl hform (by decide)
  refine ⟨Example.extract_assertionForm, hform, rfl, hrefused, fun hagrees => ?_⟩
  have haccepted := (hagrees.agreeing _ hform).symm.trans hrefused
  simp at haccepted

end AgentOAuth
