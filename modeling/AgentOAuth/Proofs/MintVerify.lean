import AgentOAuth.Model.TokenBook
import Mathlib.Tactic.Linarith

/-!
# From minting to verification

A minted token verifies until the second written in it, and its claims come
back as they were supplied (`mint_then_verify`).  The minter reckons with
fractions of seconds and the library with whole ones, so the end of the life
that is signed lies up to a second before the one the minter has computed;
`expires_in` is taken from the latter (`advertised_lifetime`).
-/

namespace AgentOAuth

open Effect

/-! ## What the library documents -/

/-- The registered claims have the types they are documented with. -/
structure RegisteredClaims (claims : Dict) : Prop where
  iss : ∃ issuer, Dict.get claims "iss" = .str issuer
  aud : ∃ audience, Dict.get claims "aud" = .str audience
  sub : ∃ subject, Dict.get claims "sub" = .str subject
  jti : ∃ jti, Dict.get claims "jti" = .str jti
  iat : ∃ iat : ℤ, Dict.get claims "iat" = .int iat
  exp : ∃ exp : ℤ, Dict.get claims "exp" = .int exp
  nbf : "nbf" ∉ Dict.keys claims

/-- Claims that `jwt.decode` has no objection to at a clock reading.  An empty
`aud` counts as none. -/
structure DecodeOptions.InOrder (options : DecodeOptions) (now : ℚ) (claims : Dict) : Prop where
  algorithm : ALGORITHM ∈ options.algorithms
  required : ∀ name ∈ options.require, Dict.get claims name ≠ .null
  begun : ∀ iat : ℤ, Dict.get claims "iat" = .int iat → iat ≤ now
  alive : ∀ exp : ℤ, Dict.get claims "exp" = .int exp → now < exp
  issuer : ∀ issuer, options.issuer = some issuer → Dict.get claims "iss" = .str issuer
  audience : options.verifyAud = true → ∃ audience, options.audience = some audience ∧
    audience ≠ "" ∧ Dict.get claims "aud" = .str audience

/-- What `mint` passes as `headers`. -/
def mintedHeaders (kid : String) : Dict := [("kid", .str kid), ("typ", .str AT_JWT)]

/-- `jwt.decode` under the key a token was signed with: the header is the one
that was asked for, and the claims come back exactly when they are in order. -/
structure PyJwt.RoundTrips (jwt : PyJwt) : Prop where
  header : ∀ {payload key kid token}, jwt.encode payload key (mintedHeaders kid) = .ok token →
    ∃ header, jwt.getUnverifiedHeader token = .ok header ∧
      Dict.get header "alg" = .str ALGORITHM ∧ Dict.get header "typ" = .str AT_JWT ∧
        Dict.get header "kid" = .str kid
  accept : ∀ {payload key kid token options now},
    jwt.encode payload key (mintedHeaders kid) = .ok token →
      RegisteredClaims (signedPayload payload) → options.InOrder now (signedPayload payload) →
        jwt.decode options key.publicKey now token = .ok (signedPayload payload)
  refuse : ∀ {payload key kid token options now},
    jwt.encode payload key (mintedHeaders kid) = .ok token →
      RegisteredClaims (signedPayload payload) → ¬ options.InOrder now (signedPayload payload) →
        jwt.decode options key.publicKey now token = .error .invalidToken

/-! ## A library that behaves so -/

/-- `jwt.decode`, with an empty `aud` taken for an absent one. -/
def PyJwt.decodeStrict (jwt : PyJwt) (options : DecodeOptions) (key : PublicKey) (now : ℚ)
    (token : String) : Except JwtExc Dict := do
  let claims ← jwt.decode options key now token
  raiseIf (options.verifyAud = true ∧ Dict.get claims "aud" = .str "") JwtExc.invalidToken
  pure claims

theorem PyJwt.decodeStrict_eq_ok {jwt : PyJwt} {options : DecodeOptions} {key : PublicKey} {now : ℚ}
    {token : String} {claims : Dict} :
    jwt.decodeStrict options key now token = .ok claims ↔
      jwt.decode options key now token = .ok claims ∧
        ¬ (options.verifyAud = true ∧ Dict.get claims "aud" = .str "") := by
  simp only [decodeStrict, bind_eq_ok, pure_eq_ok, raiseIf_eq_ok]
  constructor
  · intro h
    obtain ⟨_, hdecode, _, haud, rfl⟩ := h
    exact ⟨hdecode, haud⟩
  · intro h
    exact ⟨claims, h.1, (), h.2, rfl⟩

/-- The same library, with that `jwt.decode`. -/
def PyJwt.emptyAudienceAbsent (jwt : PyJwt) : PyJwt :=
  { jwt with
    decode := jwt.decodeStrict
    decode_claims := fun h => jwt.decode_claims (decodeStrict_eq_ok.mp h).1
    decode_signed := fun h => jwt.decode_signed (decodeStrict_eq_ok.mp h).1
    decode_required := fun h => jwt.decode_required (decodeStrict_eq_ok.mp h).1
    decode_exp := fun h => jwt.decode_exp (decodeStrict_eq_ok.mp h).1
    decode_text := fun h => jwt.decode_text (decodeStrict_eq_ok.mp h).1 }

namespace TokenBook

variable {book : TokenBook} {jwks : List (Dict × PublicKey)}

/-- What was encoded is in the book. -/
theorem lookup_of_encode {payload headers : Dict} {key : PrivateKey} {token : String}
    (h : book.encode payload key headers = .ok token) :
    ∃ entry, book.lookup token = .ok entry ∧ entry.payload = signedPayload payload ∧
      entry.signer = key.publicKey ∧ entry.header = encodedHeader headers := by
  unfold encode at h
  split at h
  · next entry hfind =>
      obtain rfl := Except.ok.inj h
      have hentry := List.find?_some hfind
      simp only [Bool.and_eq_true, decide_eq_true_eq] at hentry
      exact ⟨entry, lookup_eq_ok.mpr ⟨List.mem_of_find?_eq_some hfind, rfl⟩, hentry.1.1,
        hentry.1.2, hentry.2⟩
  · simp at h

theorem get_encodedHeader (kid : String) :
    Dict.get (encodedHeader (mintedHeaders kid)) "alg" = .str ALGORITHM ∧
      Dict.get (encodedHeader (mintedHeaders kid)) "typ" = .str AT_JWT ∧
        Dict.get (encodedHeader (mintedHeaders kid)) "kid" = .str kid := by
  simp [encodedHeader, mintedHeaders, Dict.update]

/-- The checks of the book are those that the claims have to pass. -/
theorem accepts_iff_inOrder {options : DecodeOptions} {now : ℚ} {entry : BookEntry}
    (halg : Dict.get entry.header "alg" = .str ALGORITHM)
    (hregistered : RegisteredClaims entry.payload) :
    (accepts options entry.signer now entry = true ∧
        ¬ (options.verifyAud = true ∧ Dict.get entry.payload "aud" = .str "")) ↔
      options.InOrder now entry.payload := by
  obtain ⟨⟨issuer, hiss⟩, ⟨audience, haud⟩, ⟨subject, hsub⟩, ⟨jti, hjti⟩, ⟨iat, hiat⟩, ⟨exp, hexp⟩,
    hnbf⟩ := hregistered
  have hnone : Dict.get entry.payload "nbf" = .null := by
    rw [← Dict.lookup_isSome_iff_mem_keys, Option.not_isSome_iff_eq_none] at hnbf
    rw [Dict.get, hnbf]
    rfl
  have hbegun : begun now (.int iat) = decide ((iat : ℚ) ≤ now) := by
    simp [begun, Value.number?, truncate_intCast]
  have halive : alive now (.int exp) = decide (now < exp) := by
    simp [alive, Value.number?, truncate_intCast]
  simp only [accepts, halg, hiss, haud, hsub, hjti, hiat, hexp, hnone, hbegun, halive,
    Bool.and_eq_true, List.any_eq_true, List.all_eq_true, decide_eq_true_eq, Value.str.injEq]
  constructor
  · intro h
    obtain ⟨⟨⟨⟨⟨⟨⟨⟨⟨⟨_, ⟨algorithm, halgorithm, heq⟩⟩, hrequire⟩, hiatLe⟩, _⟩, hexpLt⟩, _⟩, _⟩,
      hissuer⟩, haudience⟩, hstrict⟩ := h
    refine ⟨heq ▸ halgorithm, hrequire, ?_, ?_, ?_, ?_⟩
    · intro n hn
      obtain rfl : iat = n := by simpa [hiat] using hn
      exact hiatLe
    · intro n hn
      obtain rfl : exp = n := by simpa [hexp] using hn
      exact hexpLt
    · intro wanted hwanted
      rw [hwanted] at hissuer
      rw [hiss, of_decide_eq_true hissuer]
    · intro hverify
      -- the book takes an empty audience for one, strict decoding does not
      rw [hverify, Bool.not_true, Bool.false_or] at haudience
      cases hwanted : options.audience with
      | none => simp [hwanted] at haudience
      | some wanted =>
          obtain rfl : audience = wanted := by simpa [hwanted, audienceNames] using haudience
          exact ⟨audience, rfl, fun hempty => hstrict ⟨hverify, hempty⟩, haud⟩
  · intro h
    have hiatLe : (iat : ℚ) ≤ now := h.begun iat hiat
    have hexpLt : now < exp := h.alive exp hexp
    refine ⟨⟨⟨⟨⟨⟨⟨⟨⟨⟨trivial, ⟨ALGORITHM, h.algorithm, rfl⟩⟩, h.required⟩, hiatLe⟩, rfl⟩, hexpLt⟩,
      rfl⟩, rfl⟩, ?_⟩, ?_⟩, ?_⟩
    · cases hwanted : options.issuer with
      | none => rfl
      | some wanted =>
          have := h.issuer wanted hwanted
          simpa [hiss] using this
    · cases hverify : options.verifyAud with
      | false => rfl
      | true =>
          obtain ⟨wanted, hwanted, _, hget⟩ := h.audience hverify
          obtain rfl : audience = wanted := by simpa [haud] using hget
          simp [hwanted, audienceNames]
    · rintro ⟨hverify, rfl⟩
      obtain ⟨wanted, _, hne, hget⟩ := h.audience hverify
      exact hne (by simpa [haud] using hget.symm)

/-- `jwt.decode` under the key of the signer. -/
theorem decodeStrict_of_lookup {options : DecodeOptions} {now : ℚ} {token : String}
    {entry : BookEntry} (h : book.lookup token = .ok entry)
    (halg : Dict.get entry.header "alg" = .str ALGORITHM)
    (hregistered : RegisteredClaims entry.payload) :
    (options.InOrder now entry.payload →
      (book.pyJwt jwks).decodeStrict options entry.signer now token = .ok entry.payload) ∧
    (¬ options.InOrder now entry.payload →
      (book.pyJwt jwks).decodeStrict options entry.signer now token = .error .invalidToken) := by
  have hdecode : (book.pyJwt jwks).decode options entry.signer now token =
      if accepts options entry.signer now entry = true then .ok entry.payload
      else .error .invalidToken := bind_of_ok h _
  rw [← accepts_iff_inOrder halg hregistered]
  constructor
  · intro hin
    rw [PyJwt.decodeStrict_eq_ok, hdecode, if_pos hin.1]
    exact ⟨rfl, hin.2⟩
  · intro hout
    rw [PyJwt.decodeStrict, hdecode]
    by_cases haccepts : accepts options entry.signer now entry = true
    · rw [if_pos haccepts, bind_of_ok rfl, raiseIf,
        if_pos (not_not.mp fun hne => hout ⟨haccepts, hne⟩)]
      rfl
    · rw [if_neg haccepts]
      rfl

/-- The book is a library as documented. -/
theorem roundTrips (book : TokenBook) (jwks : List (Dict × PublicKey)) :
    (book.pyJwt jwks).emptyAudienceAbsent.RoundTrips where
  header := by
    intro payload key kid token h
    obtain ⟨entry, hlookup, _, _, hheader⟩ := lookup_of_encode h
    refine ⟨entry.header, ?_, hheader ▸ get_encodedHeader kid⟩
    exact map_eq_ok.mpr ⟨entry, hlookup, rfl⟩
  accept := by
    intro payload key kid token options now h hregistered
    obtain ⟨entry, hlookup, hpayload, hsigner, hheader⟩ := lookup_of_encode h
    rw [← hpayload] at hregistered ⊢
    rw [← hsigner]
    exact (decodeStrict_of_lookup hlookup (hheader ▸ (get_encodedHeader kid).1) hregistered).1
  refuse := by
    intro payload key kid token options now h hregistered
    obtain ⟨entry, hlookup, hpayload, hsigner, hheader⟩ := lookup_of_encode h
    rw [← hpayload] at hregistered ⊢
    rw [← hsigner]
    exact (decodeStrict_of_lookup hlookup (hheader ▸ (get_encodedHeader kid).1) hregistered).2

end TokenBook

namespace Example.MintVerify

/-- A token for nobody in particular. -/
def unaddressed : BookEntry := entry "E" 1000 1600 [("sub", .str "root"), ("aud", .str "")]

def book : TokenBook := ⟨[rootR, unaddressed], by decide⟩

def minter : TokenMinter where
  jwt := (book.pyJwt []).emptyAudienceAbsent
  issuer := "https://as"
  signingKey
  defaultTtlSeconds := 600

/-- What a grant supplies for the token. -/
def supplied (entry : BookEntry) : Dict := entry.payload.drop 4

/-- Halfway through a second. -/
def halfPast : ℚ := 2001 / 2

theorem mint_of_encode {now : ℚ} {jti token : String} {claims : Dict}
    (howned : ∀ name ∈ MINTER_OWNED_CLAIMS, name ∉ Dict.keys claims)
    (hencode : minter.encode (minter.fullClaims now jti claims none none) = .ok token) :
    ∃ minted, minter.mint now jti claims none none = .ok minted ∧ minted.token = token ∧
      minted.expiresIn = 600 := by
  have hend : minter.expiresAt now none none - now = 600 := add_sub_cancel_left now 600
  refine ⟨_, TokenMinter.mint_eq_ok.mpr ⟨howned, ?_, token, hencode, rfl⟩, rfl, ?_⟩
  · rw [hend]
    norm_num
  · rw [hend]
    have hsixHundred : truncate (totalSeconds 600) = 600 := by decide +kernel
    exact hsixHundred

theorem mint_rootR : ∃ minted, minter.mint halfPast "R" (supplied rootR) none none = .ok minted ∧
    minted.token = "R" ∧ minted.expiresIn = 600 :=
  mint_of_encode (by decide) (by decide +kernel)

theorem mint_unaddressed : ∃ minted,
    minter.mint 1000 "E" (supplied unaddressed) none none = .ok minted ∧ minted.token = "E" ∧
      minted.expiresIn = 600 :=
  mint_of_encode (by decide) (by decide +kernel)

end Example.MintVerify

/-! ## What is signed -/

/-- Without dates among them the claims are signed as they are. -/
theorem signedPayload_of_notMem {claims : Dict}
    (h : ∀ name ∈ ["exp", "iat", "nbf"], name ∉ Dict.keys claims) :
    signedPayload claims = claims := by
  have hentry : ∀ entry ∈ claims, (entry.1, numericDate entry.1 entry.2) = entry := by
    intro entry hentry
    have hnot : entry.1 ∉ ["exp", "iat", "nbf"] := fun hdate =>
      h entry.1 hdate (List.mem_map_of_mem hentry)
    rw [numericDate_of_notMem hnot]
  exact (List.map_congr_left hentry).trans (List.map_id _)

namespace TokenMinter

variable {minter : TokenMinter} {now : ℚ} {jti : String} {claims : Dict}
  {ttlSeconds : Option ℤ} {notAfter : Option ℚ} {minted : MintedToken}

/-- The verifier of the same server. -/
def verifier (minter : TokenMinter) : TokenVerifier where
  jwt := minter.jwt
  issuer := minter.issuer
  signingKey := minter.signingKey

/-- The second a token expires. -/
def signedExp (minter : TokenMinter) (now : ℚ) (ttlSeconds : Option ℤ) (notAfter : Option ℚ) : ℤ :=
  ⌊minter.expiresAt now ttlSeconds notAfter⌋

/-- The supplied claims, and those of the minter in whole seconds. -/
def returnedClaims (minter : TokenMinter) (now : ℚ) (jti : String) (claims : Dict)
    (ttlSeconds : Option ℤ) (notAfter : Option ℚ) : Dict :=
  [("iss", .str minter.issuer), ("iat", .int ⌊now⌋),
    ("exp", .int (minter.signedExp now ttlSeconds notAfter)), ("jti", .str jti)] ++ claims

theorem signedPayload_of_mint (h : minter.mint now jti claims ttlSeconds notAfter = .ok minted)
    (hnodup : (Dict.keys claims).Nodup) (hnbf : "nbf" ∉ Dict.keys claims) :
    signedPayload minted.claims = minter.returnedClaims now jti claims ttlSeconds notAfter := by
  obtain ⟨howned, _, token, _, rfl⟩ := mint_eq_ok.mp h
  have hdates : ∀ name ∈ ["exp", "iat", "nbf"], name ∉ Dict.keys claims := by
    simp only [List.forall_mem_cons, List.not_mem_nil, false_implies, implies_true, and_true]
    exact ⟨howned "exp" (by decide), howned "iat" (by decide), hnbf⟩
  have hfull : minter.fullClaims now jti claims ttlSeconds notAfter =
      minter.fullClaims now jti [] ttlSeconds notAfter ++ claims :=
    Dict.update_of_disjoint hnodup fun name hname hmem => howned name hmem hname
  calc signedPayload (minter.fullClaims now jti claims ttlSeconds notAfter)
      = signedPayload (minter.fullClaims now jti [] ttlSeconds notAfter) ++ signedPayload claims := by
        rw [hfull, signedPayload, List.map_append]
        rfl
    _ = minter.returnedClaims now jti claims ttlSeconds notAfter := by
        rw [signedPayload_of_notMem hdates]
        rfl

/-- No token is minted already expired. -/
theorem lt_signedExp (h : minter.mint now jti claims ttlSeconds notAfter = .ok minted) :
    now < minter.signedExp now ttlSeconds notAfter := by
  obtain ⟨_, halive, _⟩ := mint_eq_ok.mp h
  have hfloor := Int.sub_one_lt_floor (minter.expiresAt now ttlSeconds notAfter)
  rw [signedExp]
  linarith

/-- The token of a mint, with the header it was given. -/
theorem encode_of_mint (h : minter.mint now jti claims ttlSeconds notAfter = .ok minted) :
    minter.jwt.encode minted.claims minter.signingKey.privateKey
      (mintedHeaders minter.signingKey.kid) = .ok minted.token := by
  obtain ⟨_, _, token, htoken, rfl⟩ := mint_eq_ok.mp h
  exact htoken

/-! ## What verification returns -/

variable {subject audience : String}

/-- The registered claims of a minted token. -/
theorem registered_returnedClaims (hsub : Dict.get claims "sub" = .str subject)
    (haud : Dict.get claims "aud" = .str audience) (hnbf : "nbf" ∉ Dict.keys claims) :
    RegisteredClaims (minter.returnedClaims now jti claims ttlSeconds notAfter) where
  iss := ⟨minter.issuer, rfl⟩
  aud := ⟨audience, by simpa [returnedClaims] using haud⟩
  sub := ⟨subject, by simpa [returnedClaims] using hsub⟩
  jti := ⟨jti, by simp [returnedClaims]⟩
  iat := ⟨⌊now⌋, by simp [returnedClaims]⟩
  exp := ⟨_, by simp [returnedClaims]; rfl⟩
  nbf := by simpa [returnedClaims, Dict.keys] using hnbf

/-- The options `_verify` passes to `jwt.decode`. -/
def decodeOptions (minter : TokenMinter) (expected : Option String) : DecodeOptions where
  algorithms := [ALGORITHM]
  issuer := some minter.issuer
  audience := expected
  require := REQUIRED_CLAIMS
  verifyAud := expected.isSome

/-- The claims of a minted token are in order until it expires, for its own
audience. -/
theorem inOrder_returnedClaims {t : ℚ} (hsub : Dict.get claims "sub" = .str subject)
    (haud : Dict.get claims "aud" = .str audience) (ht : now ≤ t) (expected : Option String) :
    (minter.decodeOptions expected).InOrder t
        (minter.returnedClaims now jti claims ttlSeconds notAfter) ↔
      t < minter.signedExp now ttlSeconds notAfter ∧
        ∀ name, expected = some name → name = audience ∧ name ≠ "" := by
  have hclaims : Dict.get (minter.returnedClaims now jti claims ttlSeconds notAfter) "aud" =
      .str audience := by simpa [returnedClaims] using haud
  constructor
  · intro h
    refine ⟨h.alive _ (by simp [returnedClaims]), fun name hname => ?_⟩
    obtain ⟨wanted, hwanted, hne, hget⟩ := h.audience (by simp [decodeOptions, hname])
    obtain rfl : name = wanted := by simpa [decodeOptions, hname] using hwanted
    rw [hclaims, Value.str.injEq] at hget
    exact ⟨hget.symm, hne⟩
  · rintro ⟨halive, hexpected⟩
    refine ⟨by simp [decodeOptions], ?_, ?_, ?_, ?_, ?_⟩
    · simp [decodeOptions, REQUIRED_CLAIMS, returnedClaims, hsub, haud]
    · intro iat hiat
      obtain rfl : ⌊now⌋ = iat := by simpa [returnedClaims] using hiat
      -- `iat` is rounded down, so the token has begun when it is minted
      exact (Int.floor_le now).trans ht
    · intro exp hexp
      obtain rfl : minter.signedExp now ttlSeconds notAfter = exp := by
        simpa [returnedClaims] using hexp
      exact halive
    · intro issuer hissuer
      obtain rfl : minter.issuer = issuer := by simpa [decodeOptions] using hissuer
      rfl
    · intro hverify
      obtain ⟨name, rfl⟩ := Option.isSome_iff_exists.mp hverify
      obtain ⟨rfl, hne⟩ := hexpected name rfl
      exact ⟨name, rfl, hne, hclaims⟩

/-- What the verifier makes of a minted token is what `jwt.decode` makes of it. -/
theorem verifyToken_of_mint (hjwt : minter.jwt.RoundTrips)
    (h : minter.mint now jti claims ttlSeconds notAfter = .ok minted) (t : ℚ)
    (expected : Option String) :
    minter.verifier.verifyToken t minted.token expected =
      exceptInvalidToken
        (minter.jwt.decode (minter.decodeOptions expected) minter.signingKey.publicKey t minted.token)
        (.error (.token "token validation failed")) := by
  obtain ⟨header, hheader, halg, htyp, hkid⟩ := hjwt.header (encode_of_mint h)
  have hkid : Dict.get header "kid" = .str minter.verifier.signingKey.kid := hkid
  have hread : exceptInvalidToken (minter.verifier.jwt.getUnverifiedHeader minted.token)
      (.error (.token "token header is malformed")) = .ok header :=
    exceptInvalidToken_error_eq_ok.mpr hheader
  rw [TokenVerifier.verifyToken, bind_of_ok hread, raiseIf_bind_of_not (not_not.mpr halg),
    raiseIf_bind_of_not (not_not.mpr htyp), raiseIf_bind_of_not (not_not.mpr hkid)]
  rfl

theorem verifyToken_accepts (hjwt : minter.jwt.RoundTrips)
    (h : minter.mint now jti claims ttlSeconds notAfter = .ok minted)
    (hnodup : (Dict.keys claims).Nodup) (hsub : Dict.get claims "sub" = .str subject)
    (haud : Dict.get claims "aud" = .str audience) (hnbf : "nbf" ∉ Dict.keys claims) {t : ℚ}
    (ht : now ≤ t) (halive : t < minter.signedExp now ttlSeconds notAfter)
    {expected : Option String}
    (hexpected : ∀ name, expected = some name → name = audience ∧ name ≠ "") :
    minter.verifier.verifyToken t minted.token expected =
      .ok (minter.returnedClaims now jti claims ttlSeconds notAfter) := by
  have hsigned := signedPayload_of_mint h hnodup hnbf
  have hdecode : minter.jwt.decode (minter.decodeOptions expected) minter.signingKey.publicKey t
      minted.token = .ok (signedPayload minted.claims) :=
    hjwt.accept (encode_of_mint h) (hsigned ▸ registered_returnedClaims hsub haud hnbf)
      (hsigned ▸ (inOrder_returnedClaims hsub haud ht expected).mpr ⟨halive, hexpected⟩)
  rw [verifyToken_of_mint hjwt h, hdecode, hsigned]
  rfl

theorem verifyToken_refuses (hjwt : minter.jwt.RoundTrips)
    (h : minter.mint now jti claims ttlSeconds notAfter = .ok minted)
    (hnodup : (Dict.keys claims).Nodup) (hsub : Dict.get claims "sub" = .str subject)
    (haud : Dict.get claims "aud" = .str audience) (hnbf : "nbf" ∉ Dict.keys claims) {t : ℚ}
    (ht : now ≤ t) {expected : Option String}
    (hnot : ¬ (t < minter.signedExp now ttlSeconds notAfter ∧
      ∀ name, expected = some name → name = audience ∧ name ≠ "")) :
    minter.verifier.verifyToken t minted.token expected =
      .error (.token "token validation failed") := by
  have hsigned := signedPayload_of_mint h hnodup hnbf
  have hdecode : minter.jwt.decode (minter.decodeOptions expected) minter.signingKey.publicKey t
      minted.token = .error .invalidToken :=
    hjwt.refuse (encode_of_mint h) (hsigned ▸ registered_returnedClaims hsub haud hnbf)
      (hsigned ▸ mt (inOrder_returnedClaims hsub haud ht expected).mp hnot)
  rw [verifyToken_of_mint hjwt h, hdecode]
  rfl

/-- **Mint, then verify.**  A token is alive when it is minted, and until the
second written in it the verifier returns the supplied claims with those of the
minter; from then on it raises `TokenError`, as it does for any other audience
at any time.  Asked for an empty audience it always raises `TokenError`, also
when the token has an empty one. -/
theorem mint_then_verify (hjwt : minter.jwt.RoundTrips)
    (h : minter.mint now jti claims ttlSeconds notAfter = .ok minted)
    (hnodup : (Dict.keys claims).Nodup) (hsub : Dict.get claims "sub" = .str subject)
    (haud : Dict.get claims "aud" = .str audience) (hnbf : "nbf" ∉ Dict.keys claims) :
    now < minter.signedExp now ttlSeconds notAfter ∧
    ∀ t, now ≤ t →
      (t < minter.signedExp now ttlSeconds notAfter →
        minter.verifier.verifyAnyAudience t minted.token =
            .ok (minter.returnedClaims now jti claims ttlSeconds notAfter) ∧
          (audience ≠ "" → minter.verifier.verify t minted.token audience =
            .ok (minter.returnedClaims now jti claims ttlSeconds notAfter))) ∧
      (minter.signedExp now ttlSeconds notAfter ≤ t →
        ∃ description,
          minter.verifier.verifyAnyAudience t minted.token = .error (.token description) ∧
            minter.verifier.verify t minted.token audience = .error (.token description)) ∧
      ∀ other, other ≠ audience ∨ other = "" →
        ∃ description, minter.verifier.verify t minted.token other = .error (.token description) := by
  refine ⟨lt_signedExp h, fun t ht => ⟨fun halive => ⟨?_, fun hne => ?_⟩, fun hexpired => ?_,
    fun other hother => ?_⟩⟩
  · exact verifyToken_accepts hjwt h hnodup hsub haud hnbf ht halive (by simp)
  · exact verifyToken_accepts hjwt h hnodup hsub haud hnbf ht halive (by simp [hne])
  · exact ⟨_, verifyToken_refuses hjwt h hnodup hsub haud hnbf ht fun h => not_lt.mpr hexpired h.1,
      verifyToken_refuses hjwt h hnodup hsub haud hnbf ht fun h => not_lt.mpr hexpired h.1⟩
  · refine ⟨_, verifyToken_refuses hjwt h hnodup hsub haud hnbf ht fun h => ?_⟩
    obtain ⟨heq, hne⟩ := h.2 other rfl
    exact hother.elim (fun hdiffers => hdiffers heq) hne

theorem mint_then_verify_rootR :
    ∃ minted exp, Example.MintVerify.minter.mint Example.MintVerify.halfPast "R"
        (Example.MintVerify.supplied Example.rootR) none none = .ok minted ∧
      Example.MintVerify.minter.signedExp Example.MintVerify.halfPast none none = exp ∧ exp = 1600 ∧
      Example.MintVerify.minter.verifier.verify Example.MintVerify.halfPast minted.token
          "agent-resource" =
        .ok (Example.MintVerify.minter.returnedClaims Example.MintVerify.halfPast "R"
          (Example.MintVerify.supplied Example.rootR) none none) ∧
      ∃ description, Example.MintVerify.minter.verifier.verify 1600 minted.token "agent-resource" =
        .error (.token description) := by
  obtain ⟨minted, hminted, _⟩ := Example.MintVerify.mint_rootR
  have hsub : Dict.get (Example.MintVerify.supplied Example.rootR) "sub" = .str "root" := rfl
  have haud : Dict.get (Example.MintVerify.supplied Example.rootR) "aud" =
      .str "agent-resource" := rfl
  have h := mint_then_verify (TokenBook.roundTrips _ _) hminted (by decide) hsub haud (by decide)
  have hexp : Example.MintVerify.minter.signedExp Example.MintVerify.halfPast none none = 1600 := by
    decide +kernel
  refine ⟨minted, 1600, hminted, hexp, rfl, ?_, ?_⟩
  · exact ((h.2 _ le_rfl).1 h.1).2 (by decide)
  · obtain ⟨description, _, hrefused⟩ := (h.2 1600 (by decide +kernel)).2.1 (by rw [hexp]; rfl)
    exact ⟨description, hrefused⟩

/-- A token with an empty audience is minted, and does not verify for it. -/
theorem empty_audience_not_verified :
    Example.MintVerify.minter.jwt.RoundTrips ∧
    ∃ minted, Example.MintVerify.minter.mint 1000 "E"
        (Example.MintVerify.supplied Example.MintVerify.unaddressed) none none = .ok minted ∧
      Dict.get (Example.MintVerify.supplied Example.MintVerify.unaddressed) "aud" = .str "" ∧
      1000 < Example.MintVerify.minter.signedExp 1000 none none ∧
      Example.MintVerify.minter.verifier.verify 1000 minted.token "" =
        .error (.token "token validation failed") := by
  obtain ⟨minted, hminted, _⟩ := Example.MintVerify.mint_unaddressed
  have hsub : Dict.get (Example.MintVerify.supplied Example.MintVerify.unaddressed) "sub" =
      .str "root" := rfl
  have haud : Dict.get (Example.MintVerify.supplied Example.MintVerify.unaddressed) "aud" =
      .str "" := rfl
  refine ⟨TokenBook.roundTrips _ _, minted, hminted, haud, by decide +kernel, ?_⟩
  apply verifyToken_refuses (TokenBook.roundTrips _ _) hminted (by decide) hsub haud (by decide)
    le_rfl
  exact fun h => (h.2 "" rfl).2 rfl

/-! ## The lifetime that is advertised -/

theorem expiresIn_of_mint (h : minter.mint now jti claims ttlSeconds notAfter = .ok minted) :
    minted.expiresIn = truncate (totalSeconds (minter.expiresAt now ttlSeconds notAfter - now)) := by
  obtain ⟨_, _, token, _, rfl⟩ := mint_eq_ok.mp h
  rfl

/-- Both are rounded down: the end when it is signed, its distance in
`expires_in`. -/
theorem add_floor_sub_le_floor_iff (now expiresAt : ℚ) :
    now + ⌊expiresAt - now⌋ ≤ (⌊expiresAt⌋ : ℚ) ↔
      Int.fract expiresAt ≤ Int.fract (expiresAt - now) := by
  have hlostSigned := Int.floor_add_fract expiresAt
  have hlostAdvertised := Int.floor_add_fract (expiresAt - now)
  constructor
  · intro hle
    linarith
  · intro hle
    linarith

/-- The seconds that are advertised end no later than the computed end, but for
what the float adds. -/
theorem add_truncate_totalSeconds_le {now expiresAt : ℚ} (halive : 1 ≤ expiresAt - now) :
    now + truncate (totalSeconds (expiresAt - now)) ≤ expiresAt + (expiresAt - now) / 2 ^ 53 := by
  have hseconds : (truncate (totalSeconds (expiresAt - now)) : ℚ) ≤ totalSeconds (expiresAt - now) :=
    truncate_le (zero_le_one.trans (one_le_totalSeconds.mpr halive))
  have hfloat := totalSeconds_le (zero_le_one.trans halive)
  linarith

/-- Of a whole number of seconds all are advertised. -/
theorem add_truncate_intCast_le_iff {now : ℚ} {lifetime : ℤ} (hpos : 1 ≤ lifetime)
    (hbits : lifetime < 2 ^ 53) :
    now + truncate (totalSeconds lifetime) ≤ (⌊now + lifetime⌋ : ℚ) ↔ Int.fract now = 0 := by
  have hiff := add_floor_sub_le_floor_iff now (now + lifetime)
  rw [Int.fract_add_intCast, add_sub_cancel_left, Int.fract_intCast, Int.floor_intCast] at hiff
  rw [totalSeconds_intCast (by rw [abs_of_nonneg (by omega)]; exact hbits), truncate_intCast, hiff]
  exact ⟨fun hle => le_antisymm hle (Int.fract_nonneg now), fun heq => heq.le⟩

/-- Where the float is exact, it is the whole seconds that are advertised. -/
theorem add_floor_sub_bounds (now expiresAt : ℚ) :
    now + ⌊expiresAt - now⌋ ≤ expiresAt ∧ now + ⌊expiresAt - now⌋ < (⌊expiresAt⌋ : ℚ) + 1 := by
  have hadvertised := Int.floor_le (expiresAt - now)
  have hlost := Int.lt_floor_add_one expiresAt
  constructor <;> linarith

/-- **The advertised lifetime ends with the one the minter has computed**, up to
the rounding of a float, one part in `2⁵³` of the lifetime.  Of a whole number of
seconds nothing is lost, so `expires_in` passes the signed `exp` unless the clock
reads a whole second.  Below `2⁵³` microseconds the rounding is not seen either:
`expires_in` ends less than a second after the `exp` that is signed, and no later
than that exactly when the fraction of a second that the end loses when it is
signed is not more than the one `expires_in` loses, so always when the end is a
whole second. -/
theorem advertised_lifetime (h : minter.mint now jti claims ttlSeconds notAfter = .ok minted)
    (hnodup : (Dict.keys claims).Nodup) :
    Dict.get (signedPayload minted.claims) "exp" =
        .int (minter.signedExp now ttlSeconds notAfter) ∧
      now + minted.expiresIn ≤ minter.expiresAt now ttlSeconds notAfter +
        (minter.expiresAt now ttlSeconds notAfter - now) / 2 ^ 53 ∧
      (∀ lifetime : ℤ, lifetime < 2 ^ 53 →
        minter.expiresAt now ttlSeconds notAfter = now + lifetime →
          (now + minted.expiresIn ≤ minter.signedExp now ttlSeconds notAfter ↔
            Int.fract now = 0)) ∧
      ((minter.expiresAt now ttlSeconds notAfter - now) * 1000000 < 2 ^ 53 →
        now + minted.expiresIn ≤ minter.expiresAt now ttlSeconds notAfter ∧
        now + minted.expiresIn < minter.signedExp now ttlSeconds notAfter + 1 ∧
        (now + minted.expiresIn ≤ minter.signedExp now ttlSeconds notAfter ↔
          Int.fract (minter.expiresAt now ttlSeconds notAfter) ≤
            Int.fract (minter.expiresAt now ttlSeconds notAfter - now)) ∧
        ∀ second : ℤ, minter.expiresAt now ttlSeconds notAfter = second →
          now + minted.expiresIn ≤ minter.signedExp now ttlSeconds notAfter) := by
  have hexp : Dict.get (signedPayload minted.claims) "exp" =
      .int (minter.signedExp now ttlSeconds notAfter) := by
    rw [get_signedPayload, get_of_mint h hnodup]
    rfl
  have hexpiresIn := expiresIn_of_mint h
  have hsigned : minter.signedExp now ttlSeconds notAfter =
      ⌊minter.expiresAt now ttlSeconds notAfter⌋ := rfl
  have halive : 1 ≤ minter.expiresAt now ttlSeconds notAfter - now := (mint_eq_ok.mp h).2.1
  generalize minter.expiresAt now ttlSeconds notAfter = expiresAt at *
  have hnonneg : 0 ≤ expiresAt - now := zero_le_one.trans halive
  rw [hsigned] at hexp ⊢
  rw [hexpiresIn]
  refine ⟨hexp, add_truncate_totalSeconds_le halive, ?_, ?_⟩
  · rintro lifetime hbits rfl
    rw [add_sub_cancel_left] at halive ⊢
    exact add_truncate_intCast_le_iff (by exact_mod_cast halive) hbits
  · intro hshort
    rw [truncate_totalSeconds hnonneg hshort]
    obtain ⟨hend, hsecond⟩ := add_floor_sub_bounds now expiresAt
    refine ⟨hend, hsecond, add_floor_sub_le_floor_iff now expiresAt, ?_⟩
    rintro second rfl
    rw [add_floor_sub_le_floor_iff, Int.fract_intCast]
    exact Int.fract_nonneg _

theorem advertised_lifetime_rootR :
    ∃ minted, Example.MintVerify.minter.mint Example.MintVerify.halfPast "R"
        (Example.MintVerify.supplied Example.rootR) none none = .ok minted ∧
      Example.MintVerify.halfPast + minted.expiresIn <
        Example.MintVerify.minter.signedExp Example.MintVerify.halfPast none none + 1 := by
  obtain ⟨minted, hminted, _⟩ := Example.MintVerify.mint_rootR
  have hshort : (Example.MintVerify.minter.expiresAt Example.MintVerify.halfPast none none -
      Example.MintVerify.halfPast) * 1000000 < 2 ^ 53 := by decide +kernel
  exact ⟨minted, hminted, ((advertised_lifetime hminted (by decide)).2.2.2 hshort).2.1⟩

/-- Minted halfway through a second, a token expires half a second before the
lifetime its response states is over. -/
theorem advertised_beyond_exp :
    ∃ minted, Example.MintVerify.minter.mint Example.MintVerify.halfPast "R"
        (Example.MintVerify.supplied Example.rootR) none none = .ok minted ∧
      Dict.get (signedPayload minted.claims) "exp" = .int 1600 ∧
      ¬ Example.MintVerify.halfPast + minted.expiresIn ≤ 1600 := by
  obtain ⟨minted, hminted, _, hexpiresIn⟩ := Example.MintVerify.mint_rootR
  have hexp : ⌊Example.MintVerify.minter.expiresAt Example.MintVerify.halfPast none none⌋ = 1600 := by
    decide +kernel
  refine ⟨minted, hminted, ?_, ?_⟩
  · rw [get_signedPayload, get_of_mint hminted (by decide)]
    exact congrArg Value.int hexp
  · rw [hexpiresIn]
    decide +kernel

end TokenMinter

end AgentOAuth
