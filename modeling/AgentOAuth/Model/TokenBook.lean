import AgentOAuth.Model.World

/-!
# A PyJWT that knows finitely many tokens

`PyJwt` describes a library; this module has an executable one.  A book lists
compact tokens with their header, payload and signer.  Encoding looks up the
entry with the payload, decoding the entry with the token, and a signature
verifies under the key of the signer and no other, so signatures are ideal.

With it a server can be run.  `Example` is the one that concrete runs in this
development use.
-/

namespace AgentOAuth

/-- A compact token, taken apart. -/
structure BookEntry where
  token : String
  header : Dict
  payload : Dict
  signer : PublicKey

/-- Different entries are different strings. -/
abbrev TokenBook := Table BookEntry.token

namespace TokenBook

/-- The header that `jwt.encode` writes. -/
def encodedHeader (headers : Dict) : Dict :=
  Dict.update [("typ", .str "JWT"), ("alg", .str ALGORITHM)] headers

/-- A numeric date that is absent or not after the clock. -/
def begun (now : ℚ) (v : Value) : Bool :=
  match v, v.number? with
  | .null, _ => true
  | _, some date => truncate date ≤ now
  | _, none => false

/-- An `exp` that is absent or after the clock. -/
def alive (now : ℚ) (v : Value) : Bool :=
  match v, v.number? with
  | .null, _ => true
  | _, some exp => now < truncate exp
  | _, none => false

/-- A value that is absent or a string. -/
def textOrAbsent : Value → Bool
  | .null => true
  | .str _ => true
  | _ => false

/-- The audience is that of the claim, or one of its list. -/
def audienceNames (audience : String) : Value → Bool
  | .str name => name = audience
  | .list names => names.any fun name => name = .str audience
  | _ => false

/-- The checks of `jwt.decode`. -/
def accepts (options : DecodeOptions) (key : PublicKey) (now : ℚ) (entry : BookEntry) : Bool :=
  let claim := Dict.get entry.payload
  entry.signer = key &&
    (options.algorithms.any fun algorithm => Dict.get entry.header "alg" = .str algorithm) &&
    (options.require.all fun name => claim name ≠ .null) &&
    begun now (claim "iat") && begun now (claim "nbf") && alive now (claim "exp") &&
    textOrAbsent (claim "sub") && textOrAbsent (claim "jti") &&
    (match options.issuer with
      | none => true
      | some issuer => claim "iss" = .str issuer) &&
    (!options.verifyAud || match options.audience with
      | none => claim "aud" = .null
      | some audience => audienceNames audience (claim "aud"))

/-- The entry of a token. -/
def lookup (book : TokenBook) (token : String) : Except JwtExc BookEntry :=
  match book.find token with
  | some entry => .ok entry
  | none => .error .invalidToken

/-- `jwt.decode` of a token in the book. -/
def decode (book : TokenBook) (options : DecodeOptions) (key : PublicKey) (now : ℚ)
    (token : String) : Except JwtExc Dict := do
  let entry ← book.lookup token
  if accepts options key now entry then .ok entry.payload else .error .invalidToken

/-- `jwt.encode` of a payload in the book. -/
def encode (book : TokenBook) (payload : Dict) (key : PrivateKey) (headers : Dict) :
    Except JwtExc String :=
  match book.rows.find? fun entry => entry.payload = signedPayload payload &&
      entry.signer = key.publicKey && entry.header = encodedHeader headers with
  | some entry => .ok entry.token
  | none => .error (.other "TypeError")

variable {book : TokenBook}

theorem lookup_eq_ok {token : String} {entry : BookEntry} :
    book.lookup token = .ok entry ↔ entry ∈ book ∧ entry.token = token := by
  rw [← Table.find_eq_some, lookup]
  cases book.find token <;> simp

theorem decode_eq_ok {options : DecodeOptions} {key : PublicKey} {now : ℚ} {token : String}
    {claims : Dict} (h : book.decode options key now token = .ok claims) :
    ∃ entry, book.lookup token = .ok entry ∧ accepts options key now entry = true ∧
      entry.payload = claims := by
  obtain ⟨entry, hlookup, h⟩ := Effect.bind_eq_ok.mp h
  split at h
  · next haccepts => exact ⟨entry, hlookup, haccepts, Except.ok.inj h⟩
  · simp at h

theorem alive_of_number {now : ℚ} {v : Value} {exp : ℚ} (h : alive now v = true)
    (hexp : v.number? = some exp) : now < truncate exp := by
  cases v <;> simp_all [alive, Value.number?]

theorem textOrAbsent_eq_true {v : Value} (h : textOrAbsent v = true) (hne : v ≠ .null) :
    ∃ text, v = .str text := by
  cases v <;> simp_all [textOrAbsent]

/-- The library over a book of tokens and a list of known JWKs. -/
def pyJwt (book : TokenBook) (jwks : List (Dict × PublicKey)) : PyJwt where
  getUnverifiedHeader token := (book.lookup token).map BookEntry.header
  decodeUnverified token := (book.lookup token).map BookEntry.payload
  keyOfJwk jwk :=
    match jwks.lookup jwk with
    | some key => .ok key
    | none => .error .pyJwk
  decode := book.decode
  encode := book.encode
  signedBy key token := ∃ entry ∈ book, entry.token = token ∧ entry.signer = key
  encode_claims := by
    intro payload key headers token h
    unfold encode at h
    split at h
    · next entry hfind =>
        obtain rfl := Except.ok.inj h
        have hmem : entry ∈ book := List.mem_of_find?_eq_some hfind
        have hentry := List.find?_some hfind
        rw [lookup_eq_ok.mpr ⟨hmem, rfl⟩]
        simp only [Bool.and_eq_true, decide_eq_true_eq] at hentry
        exact congrArg Except.ok hentry.1.1
    · simp at h
  decode_claims := by
    intro options key now token claims h
    obtain ⟨entry, hlookup, _, rfl⟩ := decode_eq_ok h
    rw [hlookup]
    rfl
  decode_signed := by
    intro options key now token claims h
    obtain ⟨entry, hlookup, haccepts, rfl⟩ := decode_eq_ok h
    obtain ⟨hmem, htoken⟩ := lookup_eq_ok.mp hlookup
    simp only [accepts, Bool.and_eq_true, decide_eq_true_eq] at haccepts
    exact ⟨entry, hmem, htoken, by tauto⟩
  decode_required := by
    intro options key now token claims h name hname
    obtain ⟨entry, _, haccepts, rfl⟩ := decode_eq_ok h
    simp only [accepts, Bool.and_eq_true, List.all_eq_true, decide_eq_true_eq] at haccepts
    have hrequire : ∀ name ∈ options.require, Dict.get entry.payload name ≠ .null := by tauto
    exact hrequire name hname
  decode_exp := by
    intro options key now token claims h exp hexp
    obtain ⟨entry, _, haccepts, rfl⟩ := decode_eq_ok h
    simp only [accepts, Bool.and_eq_true] at haccepts
    exact alive_of_number (by tauto) hexp
  decode_text := by
    intro options key now token claims h name hname hne
    obtain ⟨entry, _, haccepts, rfl⟩ := decode_eq_ok h
    simp only [accepts, Bool.and_eq_true] at haccepts
    refine textOrAbsent_eq_true ?_ hne
    rcases List.mem_cons.mp hname with rfl | hname
    · tauto
    · obtain rfl := List.mem_singleton.mp hname
      tauto

theorem raisesInvalidToken (book : TokenBook) (jwks : List (Dict × PublicKey)) :
    (book.pyJwt jwks).RaisesInvalidToken := by
  have hlookup : ∀ token e, book.lookup token = .error e → e = .invalidToken := by
    intro token e h
    unfold lookup at h
    split at h <;> simp_all
  constructor
  · intro token e h
    change (book.lookup token).map BookEntry.header = .error e at h
    cases hentry : book.lookup token with
    | error e' =>
        obtain rfl := hlookup token e' hentry
        simpa [hentry, Except.map] using h.symm
    | ok entry => simp [hentry, Except.map] at h
  · intro options key now token e h
    rcases Effect.bind_eq_error.mp h with hnone | ⟨entry, _, hrefused⟩
    · exact hlookup token e hnone
    · split at hrefused <;> simp_all

end TokenBook

/-! ## A server to run -/

open Provenance Transition

namespace Example

def settings : Settings where
  issuer := "https://as"
  resourceAudience := "agent-resource"
  maxDelegationDepth := 1
  issuer_ne := by decide
  issuer_no_trailing_slash := by decide
  resourceAudience_ne := by decide
  maxDelegationDepth_mem := by decide
  accessTokenTtlSeconds_mem := by decide

def signingKey : SigningKey := ⟨⟨7, ⟨1, 2⟩⟩, "kid"⟩

def interpreter : Interpreter where
  str v := match v with
    | .str s => s
    | _ => ""
  setOrder := List.dedup
  str_str _ := rfl
  setOrder_perm _ := .refl _

def hasher : PasswordHasher where
  verify hash secret := if hash = "argon2:" ++ secret then .ok () else .error .verification
  absentSecretHash := "argon2:absent-client-placeholder-secret"

/-- A token of the example server. -/
def entry (token : String) (iat exp : ℤ) (claims : Dict) : BookEntry where
  token
  header := TokenBook.encodedHeader [("kid", .str "kid"), ("typ", .str AT_JWT)]
  payload := [("iss", .str "https://as"), ("iat", .int iat), ("exp", .int exp), ("jti", .str token)] ++
    claims
  signer := ⟨1, 2⟩

def rootR : BookEntry := entry "R" 1000 1600
  [("sub", .str "root"), ("aud", .str "agent-resource"), ("client_id", .str "r"),
    ("delegation_depth", .int 0), ("scope", .str "x y"), ("task_id", .str "task"),
    ("tenant", .str "blue")]

def rootA : BookEntry := entry "A" 1010 1610
  [("sub", .str "agent"), ("aud", .str "agent-resource"), ("client_id", .str "a"),
    ("delegation_depth", .int 0), ("scope", .str "y"), ("task_id", .str "task"),
    ("tenant", .str "red")]

def hopA : BookEntry := entry "AA" 1020 1610
  [("sub", .str "agent"), ("aud", .str "svc"), ("client_id", .str "c"),
    ("delegation_depth", .int 1), ("scope", .str "y"), ("act", .dict [("sub", .str "agent")]),
    ("task_id", .str "task"), ("tenant", .str "red")]

def hopR : BookEntry := entry "RA" 1030 1600
  [("sub", .str "agent"), ("aud", .str "svc"), ("client_id", .str "c"),
    ("delegation_depth", .int 1), ("scope", .str "x y"), ("act", .dict [("sub", .str "root")]),
    ("task_id", .str "task"), ("tenant", .str "blue")]

def jwkK : Dict := [("kty", .str "EC"), ("crv", .str "P-256"), ("kid", .str "k1")]

/-- A client assertion of the client `k`. -/
def assertionK : BookEntry where
  token := "K"
  header := [("typ", .str "JWT"), ("alg", .str ALGORITHM), ("kid", .str "k1")]
  payload := [("iss", .str "k"), ("sub", .str "k"), ("aud", .str "https://as"),
    ("exp", .int 1300), ("jti", .str "once")]
  signer := ⟨3, 4⟩

def book : TokenBook := ⟨[rootR, rootA, hopA, hopR, assertionK], by decide⟩

def server : Server where
  settings
  signingKey
  jwt := book.pyJwt [(jwkK, ⟨3, 4⟩)]
  hasher
  interpreter

def clientR : RegisteredClient where
  clientId := "r"
  subject := "root"
  allowedScopes := {"x", "y"}
  secretHash := some "argon2:secret"
  tenant := "blue"
  clientId_ne := by decide
  subject_ne := by decide

def clientA : RegisteredClient where
  clientId := "a"
  subject := "agent"
  allowedScopes := {"y"}
  secretHash := some "argon2:secret"
  tenant := "red"
  clientId_ne := by decide
  subject_ne := by decide

def clientC : RegisteredClient where
  clientId := "c"
  subject := "caller"
  allowedScopes := {"x", "y"}
  allowedAudiences := {"svc"}
  secretHash := some "argon2:secret"
  tenant := "blue"
  clientId_ne := by decide
  subject_ne := by decide

def registry : ClientTable := ⟨[clientR, clientA, clientC], by decide⟩

/-- A client without a secret, and its key. -/
def clientK : RegisteredClient where
  clientId := "k"
  subject := "keyed"
  authMethod := "private_key_jwt"
  clientId_ne := by decide
  subject_ne := by decide

def keyring : ClientKeyTable := ⟨[⟨"k", "k1", jwkK⟩], by decide⟩

def momentAt (second : ℕ) (jti : String) : Moment where
  assertionDecoded := second
  assertionChecked := second
  subjectVerified := second
  actorVerified := second
  minted := second
  jti
  taskId := "task"
  assertionDecoded_nonneg := by positivity
  assertionDecoded_le := le_rfl
  assertionChecked_le := le_rfl
  subjectVerified_le := le_rfl
  actorVerified_le := le_rfl
  taskId_ne := by decide

def post (fields : List (String × String)) : Request where
  contentType := some FORM_CONTENT_TYPE
  form := fields.map fun field => (field.1, .text field.2)

def ask (clientId scope : String) : Request :=
  post [("grant_type", "client_credentials"), ("client_id", clientId), ("client_secret", "secret"),
    ("scope", scope)]

def exchangeForm (clientId subject actor : String) : TokenForm where
  fields := [("grant_type", GRANT_TYPE), ("client_id", clientId), ("client_secret", "secret"),
    ("audience", "svc"), ("subject_token", subject), ("actor_token", actor),
    ("subject_token_type", ACCESS_TOKEN_TYPE), ("actor_token_type", ACCESS_TOKEN_TYPE)]

def assertionForm : TokenForm where
  fields := [("grant_type", "client_credentials"), ("client_assertion_type", ASSERTION_TYPE),
    ("client_assertion", "K")]

def presentedK : PresentedCredential where
  clientId := "k"
  method := PrivateKeyJwt.name
  assertion := some "K"

/-- The database when K, with its key, is the only client. -/
def keyedState : ServerState where
  clients := ⟨[clientK], by decide⟩
  clientKeys := keyring

def exchange (clientId subject actor : String) : Request :=
  post (exchangeForm clientId subject actor).fields

def signed (entry : BookEntry) : Signed := ⟨entry.token, entry.payload⟩

def treeR : Derivation Signed := .root (signed rootR)
def treeA : Derivation Signed := .root (signed rootA)
def treeAA : Derivation Signed := .derived (signed hopA) treeA treeA
def treeRA : Derivation Signed := .derived (signed hopR) treeR treeAA

/-- R and A each get a root token.  C exchanges A's token in the presence of
itself, which gives a token that names A and carries the `client_id` of C; with
that as the actor token, C exchanges R's. -/
def events : List Event := [
  .request (momentAt 1000 "R") (ask "r" "x y"),
  .request (momentAt 1010 "A") (ask "a" "y"),
  .exchange (momentAt 1020 "AA") (exchange "c" "A" "A") treeA treeA,
  .exchange (momentAt 1030 "RA") (exchange "c" "R" "AA") treeR treeAA]

def start : World := { state := { clients := registry } }

/-- The world after some events. -/
def after (events : List Event) : World := (server.system.replay start events).getD start

theorem after_reachable (events : List Event) : server.system.Reachable (after events) := by
  have hstart : server.system.Reachable start := .init ⟨rfl, rfl, rfl⟩
  unfold after
  cases hreplay : server.system.replay start events with
  | none => exact hstart
  | some w => exact hstart.replay hreplay

theorem issued_after : (after events).issued = [treeRA, treeAA, treeA, treeR] := by
  decide +kernel

/-! ### C exchanges the token of A in the presence of itself -/

def momentAA : Moment := momentAt 1020 "AA"

def requestAA : Request := exchange "c" "A" "A"

/-- The caller of that exchange is the client registered as `c`. -/
theorem caller_of_requestAA {s : ServerState} {login : Server.Login}
    (h : server.Authenticated momentAA requestAA s login) :
    s.clients.get "c" = .ok (some login.caller) := by
  have hread : (readTokenForm server.interpreter requestAA).toOption =
      some (exchangeForm "c" "A" "A") := by
    decide +kernel
  have hextract : (server.authMethods.extract (exchangeForm "c" "A" "A")).toOption.map
      (PresentedCredential.clientId ∘ Prod.fst) = some "c" := by
    decide +kernel
  have hform : login.form = exchangeForm "c" "A" "A" := by
    simpa [h.form, Except.toOption] using hread
  have hclientId : login.presented.clientId = "c" := by
    simpa [← hform, h.presented, Except.toOption] using hextract
  rw [← hclientId]
  exact (authenticate_eq_ok.mp h.caller).1

theorem answered_requestAA {s : ServerState} {caller : RegisteredClient}
    (hcaller : (s.clients.get "c").toOption = some (some caller))
    (hanswer : (Effect.value? ((server.getOauthToken momentAA requestAA).run s)).map
      TokenResponse.accessToken = some "AA") :
    ∃ login response t, server.Authenticated momentAA requestAA s login ∧ login.caller = caller ∧
      (server.getOauthToken momentAA requestAA).run s = .ok response t ∧
        response.accessToken = "AA" := by
  obtain ⟨response, hvalue, htoken⟩ := Option.map_eq_some_iff.mp hanswer
  obtain ⟨t, hrun⟩ := Effect.value?_eq_some.mp hvalue
  obtain ⟨x, hx, _⟩ := Server.getOauthToken_eq_ok_iff_succeeds.mp hrun
  refine ⟨x.login, response, t, hx.login, ?_, hrun, htoken⟩
  simpa [caller_of_requestAA hx.login, Except.toOption] using hcaller

/-- C, of the tenant `blue`, is answered with a token of the tenant `red`. -/
theorem answered_two : ∃ login response t,
    server.Authenticated momentAA requestAA (after (events.take 2)).state login ∧
      login.caller = clientC ∧
        (server.getOauthToken momentAA requestAA).run (after (events.take 2)).state =
          .ok response t ∧ response.accessToken = "AA" :=
  answered_requestAA (by decide +kernel) (by decide +kernel)

/-- C, suspended. -/
def suspendedC : RegisteredClient := { clientC with status := .suspended }

/-- R and A got their tokens, and then C was suspended. -/
def suspension : World :=
  after (events.take 2 ++ [.administer ⟨[clientR, clientA, suspendedC], by decide⟩ Table.empty])

/-- C, suspended, is answered with a token. -/
theorem answered_suspension : ∃ login response t,
    server.Authenticated momentAA requestAA suspension.state login ∧ login.caller = suspendedC ∧
      (server.getOauthToken momentAA requestAA).run suspension.state = .ok response t ∧
        response.accessToken = "AA" :=
  answered_requestAA (by decide +kernel) (by decide +kernel)

/-! ### Trees two hops deep

Every root has a task of its own.  R's token is exchanged twice in the presence
of the helper's; the token `s0`, which no grant has issued, says that only the
helper may act on it. -/

namespace Deep

def root (token subject clientId : String) (claims : Dict) : BookEntry :=
  entry token 1000 1600 ([("sub", .str subject), ("aud", .str "agent-resource"),
    ("client_id", .str clientId), ("delegation_depth", .int 0), ("scope", .str "x"),
    ("task_id", .str ("task " ++ token)), ("tenant", .str "blue")] ++ claims)

/-- A token that C was given in an exchange. -/
def hop (token subject tree : String) (depth : ℤ) (act : Dict) : BookEntry :=
  entry token 1010 1600 [("sub", .str subject), ("aud", .str "svc"), ("client_id", .str "c"),
    ("delegation_depth", .int depth), ("scope", .str "x"), ("act", .dict act),
    ("task_id", .str ("task " ++ tree)), ("tenant", .str "blue")]

def r0 : BookEntry := root "r0" "root" "r" []
def b0 : BookEntry := root "b0" "helper" "b" []
def d0 : BookEntry := root "d0" "outsider" "d" []
def r1 : BookEntry := hop "r1" "helper" "r0" 1 [("sub", .str "root")]
def r2 : BookEntry :=
  hop "r2" "helper" "r0" 2 [("sub", .str "helper"), ("act", .dict [("sub", .str "root")])]
def s0 : BookEntry := root "s0" "root" "r" [("may_act", .dict [("sub", .str "helper")])]
def s1 : BookEntry := hop "s1" "helper" "s0" 1 [("sub", .str "root")]
def s2 : BookEntry :=
  hop "s2" "outsider" "s0" 2 [("sub", .str "helper"), ("act", .dict [("sub", .str "root")])]

def book : TokenBook := ⟨[r0, b0, d0, r1, r2, s0, s1, s2], by decide⟩

def settings : Settings where
  issuer := "https://as"
  resourceAudience := "agent-resource"
  issuer_ne := by decide
  issuer_no_trailing_slash := by decide
  resourceAudience_ne := by decide
  maxDelegationDepth_mem := by decide
  accessTokenTtlSeconds_mem := by decide

def server : Server where
  settings
  signingKey
  jwt := book.pyJwt []
  hasher
  interpreter

def clientB : RegisteredClient where
  clientId := "b"
  subject := "helper"
  allowedScopes := {"x"}
  secretHash := some "argon2:secret"
  tenant := "blue"
  clientId_ne := by decide
  subject_ne := by decide

def clientD : RegisteredClient where
  clientId := "d"
  subject := "outsider"
  allowedScopes := {"x"}
  secretHash := some "argon2:secret"
  tenant := "blue"
  clientId_ne := by decide
  subject_ne := by decide

def registry : ClientTable := ⟨[clientR, clientB, clientC, clientD], by decide⟩

/-- A request at that second that draws `name` for its token, and a task named
after it. -/
def momentOf (second : ℕ) (name : String) : Moment :=
  { momentAt second name with taskId := "task " ++ name, taskId_ne := by simp }

def treeR0 : Derivation Signed := .root (signed r0)
def treeB0 : Derivation Signed := .root (signed b0)
def treeR1 : Derivation Signed := .derived (signed r1) treeR0 treeB0
def treeR2 : Derivation Signed := .derived (signed r2) treeR1 treeB0

def events : List Event := [
  .request (momentOf 1000 "r0") (ask "r" "x"),
  .request (momentOf 1000 "b0") (ask "b" "x"),
  .exchange (momentOf 1010 "r1") (exchange "c" "r0" "b0") treeR0 treeB0,
  .exchange (momentOf 1010 "r2") (exchange "c" "r1" "b0") treeR1 treeB0]

def start : World := { state := { clients := registry } }

theorem answered_events :
    (server.system.replay start events).map World.issued = some [treeR2, treeR1, treeB0, treeR0] := by
  decide +kernel

end Deep

end Example

end AgentOAuth
