import AgentOAuth.Model.TokenBook

/-!
# What of a request counts

The token endpoint reads twelve fields of the form body.  `readTokenForm`
refuses every body in which a name is repeated, whatever the name; otherwise
the form it returns answers `get` as the body does, in whatever order the
fields came and were traversed (`readTokenForm_get`).  From there on the
endpoint asks for the twelve fields only, one by one (`SameFields`), so two
requests that agree on these have one outcome (`unsigned_data_is_inert`).
-/

namespace AgentOAuth

open Effect

/-- The fields that the endpoint reads. -/
def REQUEST_FIELDS : List String := [
  "grant_type", "client_id", "client_secret", "client_assertion", "client_assertion_type",
  "subject_token", "subject_token_type", "actor_token", "actor_token_type", "requested_token_type",
  "audience", "scope"]

/-! ## Reading the body -/

/-- The form of a URL-encoded body: no value is an upload. -/
def urlEncoded (pairs : List (String × String)) : List (String × FormValue) :=
  pairs.map fun pair => (pair.1, .text pair.2)

/-- The request has a URL-encoded body with these name and value pairs. -/
structure FormPost (request : Request) (pairs : List (String × String)) : Prop where
  contentType : FORM_CONTENT_TYPE.toList <+: (request.contentType.getD "").toLower.toList
  form : request.form = urlEncoded pairs

section

variable {form : List (String × FormValue)} {names : List String}

theorem getlist_ne_nil {name : String} (h : name ∈ form.map Prod.fst) : getlist form name ≠ [] := by
  obtain ⟨entry, hentry, rfl⟩ := List.mem_map.mp h
  have hmem : entry.2 ∈ getlist form entry.1 :=
    List.mem_map_of_mem (List.mem_filter.mpr ⟨hentry, by simp⟩)
  exact List.ne_nil_of_mem hmem

/-- A name that is repeated has two values. -/
theorem two_le_getlist {name : String} (h : ¬ (form.map Prod.fst).count name ≤ 1) :
    2 ≤ (getlist form name).length := by
  rw [getlist, List.length_map, ← List.countP_eq_length_filter]
  rw [List.count, List.countP_map] at h
  have hsame : form.countP ((fun x => x == name) ∘ Prod.fst) =
      form.countP fun entry => decide (entry.1 = name) := by
    refine List.countP_congr fun entry _ => ?_
    simp
  omega

/-- **A repeated name is refused**, whichever name the loop meets first. -/
theorem readFields_error (hnames : ∀ name ∈ names, name ∈ form.map Prod.fst)
    (hrepeated : ∃ name ∈ names, 2 ≤ (getlist form name).length) :
    ∃ e, readFields form names = .error e ∧ e.error? = some "invalid_request" := by
  induction names with
  | nil =>
      obtain ⟨_, hmem, _⟩ := hrepeated
      simp at hmem
  | cons name rest ih =>
      rw [readFields]
      split
      · next value hvalue =>
          -- this name is no repeated one, so the repeated one is still to come
          obtain ⟨repeated, hmem, htwo⟩ := hrepeated
          have hrest : repeated ∈ rest := by
            rcases List.mem_cons.mp hmem with rfl | hmem
            · simp [hvalue] at htwo
            · exact hmem
          have hothers : ∀ other ∈ rest, other ∈ form.map Prod.fst := fun other hother =>
            hnames other (List.mem_cons_of_mem _ hother)
          obtain ⟨e, he, herror⟩ := ih hothers ⟨repeated, hrest, htwo⟩
          exact ⟨e, by rw [he]; rfl, herror⟩
      · exact ⟨_, rfl, rfl⟩
      · next hnil => exact absurd hnil (getlist_ne_nil (hnames name List.mem_cons_self))
      · exact ⟨_, rfl, rfl⟩

end

section

variable {pairs : List (String × String)} {names : List String}

theorem getlist_urlEncoded (hnodup : (pairs.map Prod.fst).Nodup) {name value : String}
    (h : (name, value) ∈ pairs) : getlist (urlEncoded pairs) name = [.text value] := by
  induction pairs with
  | nil => simp at h
  | cons pair rest ih =>
      rw [List.map_cons, List.nodup_cons] at hnodup
      have hcons : getlist (urlEncoded (pair :: rest)) name =
          (if pair.1 = name then [.text pair.2] else []) ++ getlist (urlEncoded rest) name := by
        by_cases hname : pair.1 = name <;> simp [getlist, urlEncoded, hname]
      rcases List.mem_cons.mp h with rfl | hrest
      · have hnone : getlist (urlEncoded rest) name = [] := by
          simp only [getlist, urlEncoded, List.map_eq_nil_iff, List.filter_eq_nil_iff]
          intro entry hentry hname
          obtain ⟨pair, hpair, rfl⟩ := List.mem_map.mp hentry
          exact hnodup.1 (List.mem_map.mpr ⟨pair, hpair, by simpa using hname⟩)
        rw [hcons, hnone, if_pos rfl, List.append_nil]
      · have hne : pair.1 ≠ name := by
          rintro rfl
          exact hnodup.1 (List.mem_map.mpr ⟨_, hrest, rfl⟩)
        rw [hcons, if_neg hne, List.nil_append]
        exact ih hnodup.2 hrest

theorem lookup_eq_some_iff (hnodup : (pairs.map Prod.fst).Nodup) {name value : String} :
    pairs.lookup name = some value ↔ (name, value) ∈ pairs := by
  induction pairs with
  | nil => simp
  | cons pair rest ih =>
      obtain ⟨k, v⟩ := pair
      rw [List.map_cons, List.nodup_cons] at hnodup
      by_cases hname : name = k
      · subst hname
        have hnot : (name, value) ∉ rest := fun hmem =>
          hnodup.1 (List.mem_map.mpr ⟨_, hmem, rfl⟩)
        simp [hnot, eq_comm]
      · rw [List.lookup_cons, beq_false_of_ne hname, ih hnodup.2]
        simp [hname]

/-- The loop finds every field, with the value the body has for it. -/
theorem readFields_urlEncoded (hnodup : (pairs.map Prod.fst).Nodup)
    (hnames : ∀ name ∈ names, name ∈ pairs.map Prod.fst) :
    ∃ fields, readFields (urlEncoded pairs) names = .ok fields ∧
      ∀ name, fields.lookup name = if name ∈ names then pairs.lookup name else none := by
  induction names with
  | nil => exact ⟨[], rfl, by simp⟩
  | cons name rest ih =>
      obtain ⟨pair, hpair, rfl⟩ := List.mem_map.mp (hnames name List.mem_cons_self)
      obtain ⟨fields, hfields, hlookup⟩ := ih fun other hother =>
        hnames other (List.mem_cons_of_mem _ hother)
      refine ⟨pair :: fields, ?_, fun other => ?_⟩
      · rw [readFields, getlist_urlEncoded hnodup hpair, hfields]
        rfl
      · by_cases hother : other = pair.1
        · subst hother
          rw [(lookup_eq_some_iff hnodup).mpr hpair, if_pos List.mem_cons_self]
          exact List.lookup_cons_self
        · rw [List.lookup_cons, beq_false_of_ne hother, hlookup]
          simp [hother]

/-- **The form answers as the body does**, and the only thing it can lack is
its grant type. -/
theorem readTokenForm_get (interpreter : Interpreter) {request : Request}
    (hpost : FormPost request pairs) (hnodup : (pairs.map Prod.fst).Nodup) :
    ∃ form : TokenForm, (∀ name, form.get name = pairs.lookup name) ∧
      readTokenForm interpreter request =
        if (pairs.lookup "grant_type").getD "" = "" then
          .error (.oauth "invalid_request" "missing required parameter: grant_type" 400)
        else .ok form := by
  have hkeys : request.form.map Prod.fst = pairs.map Prod.fst := by
    simp [hpost.form, urlEncoded, Function.comp_def]
  have hmem : ∀ name, name ∈ interpreter.setOrder (request.form.map Prod.fst) ↔
      name ∈ pairs.map Prod.fst := by
    intro name
    -- the order in which a set is traversed does not matter for what is in it
    rw [(interpreter.setOrder_perm _).mem_iff, List.mem_dedup, hkeys]
  obtain ⟨fields, hfields, hlookup⟩ := readFields_urlEncoded hnodup fun name hname =>
    (hmem name).mp hname
  have hget : ∀ name, fields.lookup name = pairs.lookup name := by
    intro name
    rw [hlookup]
    split
    · rfl
    · next hnot =>
        rw [hmem] at hnot
        cases hvalue : pairs.lookup name with
        | none => rfl
        | some value =>
            exact absurd (List.mem_map.mpr ⟨_, (lookup_eq_some_iff hnodup).mp hvalue, rfl⟩) hnot
  refine ⟨⟨fields⟩, hget, ?_⟩
  have hcontent := hpost.contentType
  rw [← hpost.form] at hfields
  simp only [readTokenForm, raiseIf, hcontent, not_true_eq_false, if_false, hfields, hget, bind,
    Except.bind]
  by_cases hgrant : (pairs.lookup "grant_type").getD "" = ""
  · rw [if_pos hgrant, if_pos hgrant]
  · rw [if_neg hgrant, if_neg hgrant]
    rfl

end

/-! ## Two forms with the same fields -/

/-- The forms agree on the fields that the endpoint reads. -/
def SameFields (form form' : TokenForm) : Prop :=
  ∀ name ∈ REQUEST_FIELDS, form.get name = form'.get name

namespace SameFields

variable {form form' : TokenForm} (h : SameFields form form')

include h

theorem require_eq {name : String} (hname : name ∈ REQUEST_FIELDS) :
    form.require name = form'.require name := by
  rw [TokenForm.require, TokenForm.require, h name hname]

theorem present_eq {name : String} (hname : name ∈ REQUEST_FIELDS) :
    form.present name = form'.present name := by
  rw [TokenForm.present, TokenForm.present, h name hname]

theorem grantType_eq : form.grantType = form'.grantType := by
  rw [TokenForm.grantType, TokenForm.grantType, h "grant_type" (by decide)]

/-- Both methods find the same credential. -/
theorem extract_eq (hasher : PasswordHasher) (config : PrivateKeyJwt) :
    (defaultClientAuthRegistry hasher config).extract form =
      (defaultClientAuthRegistry hasher config).extract form' := by
  have hsecret : ClientSecretPost.extract form = ClientSecretPost.extract form' := by
    simp only [ClientSecretPost.extract, h.present_eq (show "client_id" ∈ _ by decide),
      h.present_eq (show "client_secret" ∈ _ by decide),
      h.require_eq (show "client_id" ∈ _ by decide),
      h.require_eq (show "client_secret" ∈ _ by decide)]
  have hassertion : config.extract form = config.extract form' := by
    simp only [PrivateKeyJwt.extract, h.present_eq (show "client_assertion" ∈ _ by decide),
      h.present_eq (show "client_assertion_type" ∈ _ by decide),
      h.present_eq (show "client_id" ∈ _ by decide), h "client_id" (by decide),
      h.require_eq (show "client_assertion" ∈ _ by decide),
      h.require_eq (show "client_assertion_type" ∈ _ by decide)]
  have hfound : ClientAuthRegistry.found form [clientSecretPost hasher, privateKeyJwt config] =
      ClientAuthRegistry.found form' [clientSecretPost hasher, privateKeyJwt config] := by
    simp only [ClientAuthRegistry.found, clientSecretPost, privateKeyJwt, hsecret, hassertion]
  rw [ClientAuthRegistry.extract, ClientAuthRegistry.extract]
  exact congrArg (· >>= _) hfound

theorem exchange_eq (grant : TokenExchangeGrant) (clients : ClientTable) (moment : Moment)
    (client : Option RegisteredClient) :
    grant.resolve clients moment form client = grant.resolve clients moment form' client := by
  have htypes : TokenExchangeGrant.checkTokenTypes form =
      TokenExchangeGrant.checkTokenTypes form' := by
    simp only [TokenExchangeGrant.checkTokenTypes, TokenExchangeGrant.checkTokenType,
      h.require_eq (show "subject_token_type" ∈ _ by decide),
      h.require_eq (show "actor_token_type" ∈ _ by decide), h "requested_token_type" (by decide)]
  simp only [TokenExchangeGrant.resolve, TokenExchangeGrant.requiredAudience,
    TokenExchangeGrant.requestedScopes, htypes, h.require_eq (show "audience" ∈ _ by decide),
    h.require_eq (show "subject_token" ∈ _ by decide),
    h.require_eq (show "actor_token" ∈ _ by decide), h "scope" (by decide)]

theorem clientCredentials_eq (moment : Moment) (client : Option RegisteredClient) :
    ClientCredentialsGrant.resolve moment form client =
      ClientCredentialsGrant.resolve moment form' client := by
  simp only [ClientCredentialsGrant.resolve, ClientCredentialsGrant.result, h "scope" (by decide)]

/-- Every installed grant resolves both forms alike. -/
theorem resolve_eq {server : Server} {grant : Grant} (hgrant : grant ∈ server.grants)
    (clients : ClientTable) (moment : Moment) (client : Option RegisteredClient) :
    grant.resolve clients moment form client = grant.resolve clients moment form' client := by
  rcases Server.mem_grants.mp hgrant with rfl | rfl
  · exact h.clientCredentials_eq moment client
  · exact h.exchange_eq server.exchange clients moment client

end SameFields

/-! ## Two requests with the same fields -/

namespace Server

variable {server : Server} {moment : Moment} {request request' : Request} {s : ServerState}

/-- After the body is read, the endpoint depends on its twelve fields only. -/
theorem getOauthToken_congr {form form' : TokenForm}
    (hform : readTokenForm server.interpreter request = .ok form)
    (hform' : readTokenForm server.interpreter request' = .ok form') (h : SameFields form form') :
    (server.getOauthToken moment request).run s = (server.getOauthToken moment request').run s := by
  rw [getOauthToken, getOauthToken, run_lift_bind_of_ok hform, run_lift_bind_of_ok hform',
    h.grantType_eq]
  cases htype : form'.grantType with
  | error e => rfl
  | ok grantType =>
      rw [run_lift_bind_of_ok rfl, run_lift_bind_of_ok rfl]
      cases hget : server.grants.get grantType with
      | error e => rfl
      | ok grant =>
          have hgrant : grant ∈ server.grants := (GrantRegistry.get_eq_ok.mp hget).1
          have hclient : server.authenticatedClient moment grant form =
              server.authenticatedClient moment grant form' := by
            simp only [authenticatedClient, authMethods, h.extract_eq]
          have hanswer : ∀ client,
              server.answer moment form grant client = server.answer moment form' grant client := by
            intro client
            simp only [answer, h.resolve_eq hgrant]
          rw [run_lift_bind_of_ok rfl, run_lift_bind_of_ok rfl, hclient]
          simp only [hanswer]

/-- A body with a repeated name is refused by the reader. -/
theorem readTokenForm_repeated (interpreter : Interpreter)
    (hrepeated : ¬ (request.form.map Prod.fst).Nodup) :
    ∃ e, readTokenForm interpreter request = .error e ∧ e.error? = some "invalid_request" := by
  by_cases hcontent : FORM_CONTENT_TYPE.toList <+: (request.contentType.getD "").toLower.toList
  · obtain ⟨name, hcount⟩ := not_forall.mp (List.nodup_iff_count_le_one.not.mp hrepeated)
    have hmem : ∀ other, other ∈ interpreter.setOrder (request.form.map Prod.fst) ↔
        other ∈ request.form.map Prod.fst := by
      intro other
      rw [(interpreter.setOrder_perm _).mem_iff, List.mem_dedup]
    have hname : name ∈ request.form.map Prod.fst := List.count_pos_iff.mp (by omega)
    obtain ⟨e, he, herror⟩ := readFields_error (fun other hother => (hmem other).mp hother)
      ⟨name, (hmem name).mpr hname, two_le_getlist hcount⟩
    refine ⟨e, ?_, herror⟩
    simp only [readTokenForm, raiseIf, hcontent, not_true_eq_false, if_false, he, bind, Except.bind]
  · refine ⟨.oauth "invalid_request" s!"content type must be {FORM_CONTENT_TYPE}" 400, ?_, rfl⟩
    simp only [readTokenForm, raiseIf, hcontent, not_false_eq_true, if_true, bind, Except.bind]

end Server

namespace Example

def ordered : List (String × String) := [
  ("grant_type", "client_credentials"), ("client_id", "r"), ("client_secret", "secret"),
  ("scope", "x y")]

/-- The same in another order, with claims of the caller's own making. -/
def reordered : List (String × String) := [
  ("act", "anybody"), ("scope", "x y"), ("client_secret", "secret"), ("task_id", "mine"),
  ("client_id", "r"), ("grant_type", "client_credentials")]

end Example

namespace Server

/-- **Unsigned request data is inert.**  Two requests with URL-encoded bodies
that repeat no name and agree on the twelve fields have the same outcome, the
response or the exception and everything that is signed or stored.  A body that
repeats a name is refused, whatever is stored, and nothing is written. -/
theorem unsigned_data_is_inert (server : Server) :
    (∀ moment s request request' pairs pairs', FormPost request pairs → FormPost request' pairs' →
      (pairs.map Prod.fst).Nodup → (pairs'.map Prod.fst).Nodup →
        (∀ name ∈ REQUEST_FIELDS, pairs.lookup name = pairs'.lookup name) →
          (server.getOauthToken moment request).run s =
            (server.getOauthToken moment request').run s) ∧
    ∀ request, ¬ (request.form.map Prod.fst).Nodup →
      ∃ e, e.error? = some "invalid_request" ∧
        ∀ moment s, (server.getOauthToken moment request).run s = .error e s := by
  refine ⟨?_, fun request hrepeated => ?_⟩
  · intro moment s request request' pairs pairs' hpost hpost' hnodup hnodup' hsame
    obtain ⟨form, hget, hread⟩ := readTokenForm_get server.interpreter hpost hnodup
    obtain ⟨form', hget', hread'⟩ := readTokenForm_get server.interpreter hpost' hnodup'
    have hgrant : pairs.lookup "grant_type" = pairs'.lookup "grant_type" :=
      hsame "grant_type" (by decide)
    rw [hgrant] at hread
    by_cases hmissing : (pairs'.lookup "grant_type").getD "" = ""
    · rw [if_pos hmissing] at hread hread'
      simp only [getOauthToken, hread, hread']
    · -- from here on the endpoint reads the form by name only
      rw [if_neg hmissing] at hread hread'
      refine getOauthToken_congr hread hread' fun name hname => ?_
      rw [hget, hget', hsame name hname]
  · obtain ⟨e, hread, herror⟩ := readTokenForm_repeated server.interpreter hrepeated
    refine ⟨e, herror, fun moment s => ?_⟩
    simp only [getOauthToken, hread]
    rfl

theorem unsigned_data_is_inert_act :
    ∃ response t, (Example.server.getOauthToken (Example.momentAt 1000 "R")
        (Example.post Example.reordered)).run Example.start.state = .ok response t ∧
      (Example.server.getOauthToken (Example.momentAt 1000 "R") (Example.post Example.ordered)).run
        Example.start.state = .ok response t := by
  have hvalue : (Effect.value? ((Example.server.getOauthToken (Example.momentAt 1000 "R")
      (Example.post Example.ordered)).run Example.start.state)).isSome := by
    decide +kernel
  obtain ⟨response, hresponse⟩ := Option.isSome_iff_exists.mp hvalue
  obtain ⟨t, hrun⟩ := value?_eq_some.mp hresponse
  have hpost : ∀ pairs, FormPost (Example.post pairs) pairs := fun pairs =>
    ⟨show FORM_CONTENT_TYPE.toList <+: FORM_CONTENT_TYPE.toLower.toList by decide +kernel, rfl⟩
  have hsame := (unsigned_data_is_inert Example.server).1 (Example.momentAt 1000 "R")
    Example.start.state _ _ _ _ (hpost Example.reordered) (hpost Example.ordered) (by decide)
    (by decide) (by decide)
  exact ⟨response, t, hsame.trans hrun, hrun⟩

end Server

end AgentOAuth
