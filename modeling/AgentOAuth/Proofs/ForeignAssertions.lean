import AgentOAuth.Lib.Noninterference
import AgentOAuth.Proofs.Authentication

/-!
# Assertions of others

Nobody can use up the assertions of a client.  A request writes to the replay
table only when an assertion has passed every check, and then the row carries
the id of the client whose key signed it (`claimed_by_key`).  A request whose
assertion no key of the client has signed therefore leaves the client's rows
alone, and those rows are all that the client's own authentications read of the
table.  So the requests of others can be taken out of a run without the client
noticing (`assertions_not_burned`).
-/

namespace AgentOAuth

open Effect Noninterference

/-! ## One claim -/

section

variable {row : ReplayRow} {s t : ServerState}

/-- What a claim answers: whether its key is free. -/
theorem outcome_claimAssertion :
    outcome ((claimAssertion row).run s) = (do
      textParameter row.clientId
      textParameter row.jti
      pure (decide (s.assertionJtis.find row.primaryKey = none)) : Except Exc Bool) := by
  rw [claimAssertion, run_atomically]
  cases textParameter row.clientId with
  | error e => rfl
  | ok _ =>
      cases textParameter row.jti with
      | error e => rfl
      | ok _ =>
          cases hinsert : s.assertionJtis.insert row with
          | none =>
              have htaken := Table.insert_eq_none.mp hinsert
              simp [ReplayTable.claim, hinsert, htaken, bind, Except.bind, pure, Except.pure]
          | some written =>
              have hfree := (Table.insert_eq_some.mp hinsert).1
              simp [ReplayTable.claim, hinsert, hfree, bind, Except.bind, pure, Except.pure]

/-- A claim adds its row when it is the first, and nothing else. -/
theorem mem_claimAssertion {other : ReplayRow} :
    other ∈ (finalState ((claimAssertion row).run s)).assertionJtis ↔
      other ∈ s.assertionJtis ∨
        other = row ∧ outcome ((claimAssertion row).run s) = .ok true := by
  cases hrun : (claimAssertion row).run s with
  | error e u =>
      rw [finalState_error, claimAssertion_eq_error hrun]
      simp
  | ok first u =>
      cases first with
      | false =>
          rw [finalState_ok, claimAssertion_eq_ok_false hrun]
          simp
      | true =>
          obtain ⟨_, _, written, hinsert, rfl⟩ := claimAssertion_eq_ok_true.mp hrun
          rw [finalState_ok, Table.mem_insert hinsert]
          simp [or_comm]

/-- What the first use answers, when the database may fail. -/
theorem outcome_isFirstUse {moment : Moment} :
    outcome ((PrivateKeyJwt.isFirstUse moment row).run s) =
      if moment.claimFails then .error (.python "OperationalError")
      else outcome ((claimAssertion row).run s) := by
  rw [PrivateKeyJwt.run_isFirstUse]
  cases moment.claimFails <;> rfl

theorem mem_isFirstUse {moment : Moment} {other : ReplayRow} :
    other ∈ (finalState ((PrivateKeyJwt.isFirstUse moment row).run s)).assertionJtis ↔
      other ∈ s.assertionJtis ∨
        other = row ∧ outcome ((PrivateKeyJwt.isFirstUse moment row).run s) = .ok true := by
  rw [outcome_isFirstUse, PrivateKeyJwt.run_isFirstUse]
  cases moment.claimFails with
  | true => simp
  | false => exact mem_claimAssertion

end

/-! ## Authentication by assertion, step by step -/

section

variable {config : PrivateKeyJwt} {moment : Moment} {presented : PresentedCredential}
  {s t : ServerState}

/-- The stored client, and the row that its assertion would claim. -/
def claimed (config : PrivateKeyJwt) (s : ServerState) (moment : Moment)
    (presented : PresentedCredential) : Except Exc (Option RegisteredClient × Option ReplayRow) := do
  let client ← s.clients.get presented.clientId
  let row ← config.check s.clientKeys moment.assertionDecoded moment.assertionChecked
    presented client
  pure (client, row)

/-- What `authenticate` makes of the answer of the method. -/
def conclude (client : Option RegisteredClient) (proved : Bool) : Except Exc RegisteredClient := do
  raiseIf (proved = false) authenticationFailed
  match client with
  | some client => pure client
  | none => .error (.python "AssertionError")

theorem PrivateKeyJwt.run_verify {client : Option RegisteredClient} :
    (config.verify moment presented client).run s =
      match config.check s.clientKeys moment.assertionDecoded moment.assertionChecked presented
          client with
      | .error e => .error e s
      | .ok none => .ok false s
      | .ok (some row) => (PrivateKeyJwt.isFirstUse moment row).run s := by
  rw [verify, run_bind_of_ok (EStateM.run_get s)]
  cases config.check s.clientKeys moment.assertionDecoded moment.assertionChecked
    presented client with
  | error e => rfl
  | ok row => cases row <;> rfl

/-- Authentication reads the registry, claims a row, and concludes. -/
theorem run_authenticate_privateKeyJwt :
    (authenticate moment presented (privateKeyJwt config)).run s =
      match claimed config s moment presented with
      | .error e => .error e s
      | .ok (client, none) => (lift (conclude client false)).run s
      | .ok (client, some row) =>
          match (PrivateKeyJwt.isFirstUse moment row).run s with
          | .ok proved u => (lift (conclude client proved)).run u
          | .error e u => .error e u := by
  have hconclude : ∀ client proved u,
      ((do
        lift (raiseIf (proved = false) authenticationFailed)
        match client with
        | some client => pure client
        | none => throw (Exc.python "AssertionError") : ServerM RegisteredClient)).run u =
        (lift (conclude client proved)).run u := by
    intro client proved u
    cases proved <;> cases client <;> rfl
  rw [authenticate, run_bind_of_ok (EStateM.run_get s)]
  cases hclient : s.clients.get presented.clientId with
  | error e =>
      rw [claimed, hclient]
      rfl
  | ok client =>
      have hclaimed : claimed config s moment presented =
          (config.check s.clientKeys moment.assertionDecoded moment.assertionChecked presented
            client).map (Prod.mk client) := by
        rw [claimed, hclient]
        rfl
      have hverify : ((privateKeyJwt config).verify moment presented client).run s = _ :=
        PrivateKeyJwt.run_verify
      -- all checks read the state only; the claim is the one write
      rw [hclaimed, run_lift_bind_of_ok rfl, EStateM.run_bind, hverify]
      cases config.check s.clientKeys moment.assertionDecoded moment.assertionChecked presented
          client with
      | error e => rfl
      | ok row =>
          cases row with
          | none => exact hconclude client false s
          | some row =>
              simp only [Except.map]
              cases (PrivateKeyJwt.isFirstUse moment row).run s with
              | error e u => rfl
              | ok proved u => exact hconclude client proved u

/-- The row carries the id of the client, and one of its keys has signed the
assertion. -/
theorem claimed_by_key {client : Option RegisteredClient} {row : ReplayRow}
    (h : claimed config s moment presented = .ok (client, some row)) :
    row.clientId = presented.clientId ∧ ∃ key ∈ s.clientKeys, key.clientId = presented.clientId ∧
      ∃ publicKey, config.jwt.keyOfJwk key.publicJwk = .ok publicKey ∧
        config.jwt.signedBy publicKey (presented.assertion.getD "") := by
  simp only [claimed, bind_eq_ok, pure_eq_ok, Prod.mk.injEq] at h
  obtain ⟨stored, hstored, _, hcheck, rfl, rfl⟩ := h
  obtain ⟨client, evidence, rfl, haccepted⟩ := PrivateKeyJwt.check_eq_ok_some hcheck
  obtain ⟨_, hid⟩ := ClientTable.get_eq_ok_some hstored
  exact ⟨haccepted.rowClientId.trans hid, evidence.key, haccepted.mem_keys,
    haccepted.keyClientId.trans hid, evidence.publicKey, haccepted.publicKey,
    config.jwt.decode_signed haccepted.decode⟩

/-- What an authentication adds to the replay table. -/
theorem mem_authenticate {other : ReplayRow} :
    other ∈ (finalState
        ((authenticate moment presented (privateKeyJwt config)).run s)).assertionJtis ↔
      other ∈ s.assertionJtis ∨ ∃ client,
        claimed config s moment presented = .ok (client, some other) ∧
          outcome ((PrivateKeyJwt.isFirstUse moment other).run s) = .ok true := by
  rw [run_authenticate_privateKeyJwt]
  cases hclaimed : claimed config s moment presented with
  | error e => simp
  | ok found =>
      obtain ⟨client, row⟩ := found
      cases row with
      | none => simp
      | some row =>
          have hfinal : (finalState (match (PrivateKeyJwt.isFirstUse moment row).run s with
              | .ok proved u => (lift (conclude client proved) : ServerM RegisteredClient).run u
              | .error e u => .error e u)) =
                finalState ((PrivateKeyJwt.isFirstUse moment row).run s) := by
            cases (PrivateKeyJwt.isFirstUse moment row).run s <;> simp
          rw [hfinal, mem_isFirstUse]
          simp only [Except.ok.injEq, Prod.mk.injEq, Option.some.injEq]
          constructor
          · rintro (hold | ⟨rfl, hfirst⟩)
            · exact .inl hold
            · exact .inr ⟨client, ⟨rfl, rfl⟩, hfirst⟩
          · rintro (hold | ⟨_, ⟨_, rfl⟩, hfirst⟩)
            · exact .inl hold
            · exact .inr ⟨rfl, hfirst⟩

/-- What an authentication answers. -/
theorem outcome_authenticate :
    outcome ((authenticate moment presented (privateKeyJwt config)).run s) = (do
      let (client, row) ← claimed config s moment presented
      match row with
      | none => conclude client false
      | some row => do
          let proved ← outcome ((PrivateKeyJwt.isFirstUse moment row).run s)
          conclude client proved : Except Exc RegisteredClient) := by
  rw [run_authenticate_privateKeyJwt]
  cases claimed config s moment presented with
  | error e => rfl
  | ok found =>
      obtain ⟨client, row⟩ := found
      cases row with
      | none => exact outcome_lift _ s
      | some row =>
          simp only [bind, Except.bind]
          cases (PrivateKeyJwt.isFirstUse moment row).run s with
          | error e u => rfl
          | ok proved u => exact outcome_lift _ u

end

/-! ## Requests of others -/

/-- A request to the token endpoint, and whether it is one of others. -/
structure Call where
  moment : Moment
  request : Request
  foreign : Bool

/-- States that the client cannot tell apart: the registry is the same, and so
are the client's own rows of the replay table. -/
structure Alike (keys : ClientKeyTable) (clientId : String) (s t : ServerState) : Prop where
  clients : s.clients = t.clients
  clientKeys : s.clientKeys = keys
  clientKeys' : t.clientKeys = keys
  rows : ∀ row : ReplayRow, row.clientId = clientId →
    (row ∈ s.assertionJtis ↔ row ∈ t.assertionJtis)

namespace Alike

variable {keys : ClientKeyTable} {clientId : String} {s t : ServerState}

theorem find_eq (h : Alike keys clientId s t) (jti : String) :
    s.assertionJtis.find (clientId, jti) = t.assertionJtis.find (clientId, jti) := by
  refine Option.ext fun row => ?_
  rw [Table.find_eq_some, Table.find_eq_some]
  constructor
  · intro h'
    obtain ⟨hmem, hkey⟩ := h'
    exact ⟨(h.rows row (congrArg Prod.fst hkey)).mp hmem, hkey⟩
  · intro h'
    obtain ⟨hmem, hkey⟩ := h'
    exact ⟨(h.rows row (congrArg Prod.fst hkey)).mpr hmem, hkey⟩

/-- A claim of the client is answered alike. -/
theorem outcome_claim (h : Alike keys clientId s t) {row : ReplayRow}
    (hrow : row.clientId = clientId) (moment : Moment) :
    outcome ((PrivateKeyJwt.isFirstUse moment row).run s) =
      outcome ((PrivateKeyJwt.isFirstUse moment row).run t) := by
  have hfind := h.find_eq row.jti
  rw [← hrow] at hfind
  have hclaim : outcome ((claimAssertion row).run s) = outcome ((claimAssertion row).run t) := by
    rw [outcome_claimAssertion, outcome_claimAssertion, ReplayRow.primaryKey, hfind]
  rw [outcome_isFirstUse, outcome_isFirstUse, hclaim]

theorem claimed_eq (h : Alike keys clientId s t) (config : PrivateKeyJwt) (moment : Moment)
    (presented : PresentedCredential) :
    claimed config s moment presented = claimed config t moment presented := by
  rw [claimed, claimed, h.clients, h.clientKeys, h.clientKeys']

end Alike

namespace Server

variable {server : Server} {keys : ClientKeyTable} {clientId : String} {s t : ServerState}
  {moment : Moment} {request : Request}

/-- What the request presents to which method, before anything stored is read. -/
def presented (server : Server) (request : Request) :
    Except Exc (PresentedCredential × ClientAuthMethod) := do
  let form ← readTokenForm server.interpreter request
  let grantType ← form.grantType
  let _ ← server.grants.get grantType
  server.authMethods.extract form

theorem presented_eq_ok {found : PresentedCredential × ClientAuthMethod}
    (h : server.presented request = .ok found) :
    ∃ form, readTokenForm server.interpreter request = .ok form ∧
      server.authMethods.extract form = .ok found := by
  simp only [presented, bind_eq_ok] at h
  obtain ⟨form, hform, _, _, _, _, hextract⟩ := h
  exact ⟨form, hform, hextract⟩

/-- The request is none of the client's: no key registered for the client has
signed the assertion that it carries. -/
def Foreign (server : Server) (keys : ClientKeyTable) (clientId : String) (request : Request) :
    Prop :=
  ∀ form, readTokenForm server.interpreter request = .ok form →
    ∀ assertion, form.get "client_assertion" = some assertion →
      ∀ key ∈ keys, key.clientId = clientId →
        ∀ publicKey, server.jwt.keyOfJwk key.publicJwk = .ok publicKey →
          ¬ server.jwt.signedBy publicKey assertion

/-- The token endpoint, watched by a client: of a request that presents one of
its assertions it sees whether that authenticated it. -/
def watching (server : Server) (clientId : String) :
    Machine ServerState Call (Option (Except Exc RegisteredClient)) where
  step s call := finalState ((server.getOauthToken call.moment call.request).run s)
  observe s call :=
    match server.presented call.request with
    | .ok (presented, method) =>
        if method.name = PrivateKeyJwt.name ∧ presented.clientId = clientId then
          some (outcome ((authenticate call.moment presented method).run s))
        else none
    | .error _ => none

/-- After authentication no request touches the replay table. -/
theorem keeps_answer (form : TokenForm) (grant : Grant) (client : Option RegisteredClient) :
    Keeps ServerState.assertionJtis (server.answer moment form grant client) :=
  keeps_get.bind fun _ => (keeps_lift _).bind fun _ =>
    (IssuancePipeline.keeps_issue.map fun kept => kept.2.2).bind fun _ => keeps_pure _

/-- **A request touches the replay table in its authentication only.** -/
theorem replays_getOauthToken :
    (finalState ((server.getOauthToken moment request).run s)).assertionJtis =
      match server.presented request with
      | .ok (presented, method) =>
          (finalState ((authenticate moment presented method).run s)).assertionJtis
      | .error _ => s.assertionJtis := by
  cases hread : readTokenForm server.interpreter request with
  | error e =>
      simp only [presented, getOauthToken, hread]
      rfl
  | ok form =>
      cases hgrantType : form.grantType with
      | error e =>
          rw [getOauthToken, run_lift_bind_of_ok hread, hgrantType]
          simp only [presented, hread, hgrantType, bind, Except.bind]
          rfl
      | ok grantType =>
          cases hget : server.grants.get grantType with
          | error e =>
              rw [getOauthToken, run_lift_bind_of_ok hread, run_lift_bind_of_ok hgrantType, hget]
              simp only [presented, hread, hgrantType, hget, bind, Except.bind]
              rfl
          | ok grant =>
              have hpresented : server.presented request = server.authMethods.extract form := by
                simp only [presented, hread, hgrantType, hget, bind, Except.bind]
              have hrequires := requiresClientAuth (GrantRegistry.get_eq_ok.mp hget).1
              rw [getOauthToken, run_lift_bind_of_ok hread, run_lift_bind_of_ok hgrantType,
                run_lift_bind_of_ok hget, authenticatedClient, if_pos hrequires, hpresented]
              cases hextract : server.authMethods.extract form with
              | error e => rfl
              | ok found =>
                  rw [EStateM.run_bind, run_lift_bind_of_ok rfl, EStateM.run_bind]
                  -- after authentication no step touches the replay table
                  change _ = (finalState ((authenticate moment found.1 found.2).run s)).assertionJtis
                  cases (authenticate moment found.1 found.2).run s with
                  | error e u => rfl
                  | ok caller u => exact keeps_answer form grant (some caller) u

/-! ## What the client sees -/

/-- A method that is not `private_key_jwt` leaves the replay table alone. -/
theorem replays_clientSecretPost (hasher : PasswordHasher) (presented : PresentedCredential) :
    (finalState ((authenticate moment presented (clientSecretPost hasher)).run s)).assertionJtis =
      s.assertionJtis :=
  keeps_authenticate (fun _ _ _ => keeps_lift _) moment presented s

/-- A request has the same registry before and after. -/
theorem clientKeys_getOauthToken :
    (finalState ((server.getOauthToken moment request).run s)).clientKeys = s.clientKeys :=
  congrArg Prod.snd (keeps_getOauthToken server moment request s)

theorem clients_getOauthToken :
    (finalState ((server.getOauthToken moment request).run s)).clients = s.clients :=
  congrArg Prod.fst (keeps_getOauthToken server moment request s)

/-- **One request, in two states the client cannot tell apart.** -/
theorem watching_unwinding (server : Server) (keys : ClientKeyTable) (clientId : String) :
    (server.watching clientId).Unwinding (Alike keys clientId) := by
  constructor
  · intro s t call h
    refine ⟨?_, ?_, ?_, fun row hrow => ?_⟩
    · simp only [watching, clients_getOauthToken, h.clients]
    · simp only [watching, clientKeys_getOauthToken, h.clientKeys]
    · simp only [watching, clientKeys_getOauthToken, h.clientKeys']
    · simp only [watching, replays_getOauthToken]
      cases hpresented : server.presented call.request with
      | error e => exact h.rows row hrow
      | ok found =>
          obtain ⟨presented, method⟩ := found
          obtain ⟨form, _, hextract⟩ := presented_eq_ok hpresented
          rcases extract_cases hextract with ⟨rfl, _⟩ | ⟨rfl, _⟩
          · simp only [replays_clientSecretPost]
            exact h.rows row hrow
          · -- a row of the client is claimed in both states or in neither
            simp only [mem_authenticate, h.claimed_eq, h.outcome_claim hrow, h.rows row hrow]
  · intro s t call h
    simp only [watching]
    cases hpresented : server.presented call.request with
    | error e => rfl
    | ok found =>
        obtain ⟨presented, method⟩ := found
        obtain ⟨form, _, hextract⟩ := presented_eq_ok hpresented
        simp only
        split
        · next hown =>
            rcases extract_cases hextract with ⟨rfl, _⟩ | ⟨rfl, _⟩
            · have hname : (clientSecretPost server.hasher).name ≠ PrivateKeyJwt.name := by
                simp [clientSecretPost, ClientSecretPost.name, PrivateKeyJwt.name]
              exact absurd hown.1 hname
            · rw [outcome_authenticate, outcome_authenticate, h.claimed_eq]
              cases hclaimed : claimed server.assertions t call.moment presented with
              | error e => rfl
              | ok found =>
                  obtain ⟨client, row⟩ := found
                  cases row with
                  | none => rfl
                  | some row =>
                      have hrow := (claimed_by_key hclaimed).1.trans hown.2
                      simp only [bind, Except.bind, h.outcome_claim hrow]
        · rfl

/-- **A request of others leaves the client's rows alone.** -/
theorem Foreign.invisible {call : Call} (hforeign : server.Foreign keys clientId call.request)
    (h : Alike keys clientId s t) :
    Alike keys clientId ((server.watching clientId).step s call) t := by
  refine ⟨?_, ?_, h.clientKeys', fun row hrow => ?_⟩
  · simp only [watching, clients_getOauthToken, h.clients]
  · simp only [watching, clientKeys_getOauthToken, h.clientKeys]
  · rw [← h.rows row hrow]
    simp only [watching, replays_getOauthToken]
    cases hpresented : server.presented call.request with
    | error e => rfl
    | ok found =>
        obtain ⟨presented, method⟩ := found
        obtain ⟨form, hform, hextract⟩ := presented_eq_ok hpresented
        rcases extract_cases hextract with ⟨rfl, _⟩ | ⟨rfl, hassertion, _⟩
        · simp only [replays_clientSecretPost]
        · simp only [mem_authenticate]
          constructor
          · rintro (hold | ⟨client, hclaimed, _⟩)
            · exact hold
            · -- the row would be the client's, so one of its keys would have signed
              obtain ⟨hid, key, hkey, hkeyId, publicKey, hpublic, hsigned⟩ := claimed_by_key hclaimed
              obtain ⟨assertion, hget, _, _, hpresents, _⟩ :=
                PrivateKeyJwt.extract_eq_ok_some hassertion
              rw [hpresents, Option.getD_some] at hsigned
              rw [h.clientKeys] at hkey
              exact absurd hsigned (hforeign form hform assertion hget key hkey
                (hkeyId.trans (hid.symm.trans hrow)) publicKey hpublic)
          · exact .inl

end Server

namespace Example

/-- K authenticates with its assertion. -/
def ownCall : Call := ⟨momentAt 1000 "jti", post assertionForm.fields, false⟩

/-- Somebody presents a token of R as an assertion. -/
def foreignCall : Call where
  moment := momentAt 1000 "jti"
  request := post [("grant_type", "client_credentials"), ("client_assertion_type", ASSERTION_TYPE),
    ("client_assertion", "R")]
  foreign := true

theorem foreign_foreignCall :
    server.Foreign keyedState.clientKeys "k" foreignCall.request := by
  intro form hform assertion hassertion key hkey _ publicKey hpublic hsigned
  obtain ⟨entry, hentry, htoken, hsigner⟩ := hsigned
  have hread : (readTokenForm server.interpreter foreignCall.request).toOption.map
      (fun form => form.get "client_assertion") = some (some "R") := by
    decide +kernel
  obtain rfl : assertion = "R" := by simpa [hform, Except.toOption, hassertion] using hread
  obtain rfl : key = ⟨"k", "k1", jwkK⟩ := List.mem_singleton.mp hkey
  have hjwk : (server.jwt.keyOfJwk jwkK).toOption = some ⟨3, 4⟩ := by decide +kernel
  obtain rfl : publicKey = ⟨3, 4⟩ := by simpa [hpublic, Except.toOption] using hjwk
  have hsigners : ∀ entry ∈ book.rows, entry.token = "R" → entry.signer ≠ ⟨3, 4⟩ := by
    decide +kernel
  exact hsigners entry hentry htoken hsigner

end Example

namespace Server

/-- **Nobody burns the assertions of a client.**  Take any requests, some of
them with assertions that no key registered for the client has signed.  With
these or without them, the rows of the client in the replay table are the same
in the end, and so is every answer to an authentication that presents an
assertion in the client's name. -/
theorem assertions_not_burned (server : Server) (clientId : String) (s : ServerState)
    (calls : List Call)
    (hforeign : ∀ call ∈ calls, call.foreign = true →
      server.Foreign s.clientKeys clientId call.request) :
    (∀ row : ReplayRow, row.clientId = clientId →
      (row ∈ ((server.watching clientId).run s calls).assertionJtis ↔
        row ∈ ((server.watching clientId).run s (visible Call.foreign calls)).assertionJtis)) ∧
    (server.watching clientId).observations Call.foreign s calls =
      (server.watching clientId).observations Call.foreign s (visible Call.foreign calls) := by
  have hstart : Alike s.clientKeys clientId s s := ⟨rfl, rfl, rfl, fun _ _ => Iff.rfl⟩
  obtain ⟨halike, hseen⟩ := (watching_unwinding server s.clientKeys clientId).purge
    (fun call hcall hhidden _ _ => (hforeign call hcall hhidden).invisible) hstart
  exact ⟨halike.rows, hseen⟩

theorem assertions_not_burned_k :
    (Example.server.watching "k").observations Call.foreign Example.keyedState
        [Example.foreignCall, Example.ownCall, Example.foreignCall] =
      (Example.server.watching "k").observations Call.foreign Example.keyedState
        [Example.ownCall] := by
  refine (assertions_not_burned Example.server "k" Example.keyedState
    [Example.foreignCall, Example.ownCall, Example.foreignCall] ?_).2
  intro call hcall hforeign
  simp only [List.mem_cons, List.not_mem_nil, or_false] at hcall
  rcases hcall with rfl | rfl | rfl
  · exact Example.foreign_foreignCall
  · exact absurd hforeign (by decide)
  · exact Example.foreign_foreignCall

end Server

end AgentOAuth
