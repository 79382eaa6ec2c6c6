import AgentOAuth.Model.Text
import AgentOAuth.Model.Tokens

/-!
# The published key

The part of `src/crypto/keys.py` that turns a key into text: unpadded base64url,
the JWK that the JWKS endpoint serves, and the thumbprint used as `kid`.
SHA-256 is a parameter.
-/

namespace AgentOAuth

open Effect

/-! ## Bytes and base64url -/

/-- `n.to_bytes(length, "big")`. -/
def toBytes (length n : ℕ) : Except Exc (List UInt8) :=
  if n < 256 ^ length then
    .ok ((List.range length).reverse.map fun i => UInt8.ofNat (n / 256 ^ i % 256))
  else .error (.python "OverflowError")

/-- The alphabet of `base64.urlsafe_b64encode`. -/
def urlsafeAlphabet : List Char :=
  "ABCDEFGHIJKLMNOPQRSTUVWXYZabcdefghijklmnopqrstuvwxyz0123456789-_".toList

/-- The letter for six bits. -/
def sextet (n : ℕ) : Char := urlsafeAlphabet.getD n '='

/-- `base64.urlsafe_b64encode(value)`: three bytes become four letters. -/
def urlsafeB64encode : List UInt8 → List Char
  | a :: b :: c :: rest =>
      sextet (a.toNat / 4) :: sextet (a.toNat % 4 * 16 + b.toNat / 16) ::
        sextet (b.toNat % 16 * 4 + c.toNat / 64) :: sextet (c.toNat % 64) :: urlsafeB64encode rest
  | [a, b] =>
      [sextet (a.toNat / 4), sextet (a.toNat % 4 * 16 + b.toNat / 16), sextet (b.toNat % 16 * 4), '=']
  | [a] => [sextet (a.toNat / 4), sextet (a.toNat % 4 * 16), '=', '=']
  | [] => []

/-- `_base64url(value)`: without the padding. -/
def base64url (value : List UInt8) : String :=
  String.ofList ((urlsafeB64encode value).rdropWhile (· = '='))

theorem sextet_ne_padding {n : ℕ} (h : n < 64) : sextet n ≠ '=' := by
  have hall : ∀ i : Fin 64, sextet i ≠ '=' := by decide +kernel
  exact hall ⟨n, h⟩

/-- Only the empty value is encoded as the empty text. -/
theorem base64url_ne_empty {value : List UInt8} (h : value ≠ []) : base64url value ≠ "" := by
  obtain ⟨a, rest, rfl⟩ := List.exists_cons_of_ne_nil h
  have hfirst : ∃ letters, urlsafeB64encode (a :: rest) = sextet (a.toNat / 4) :: letters := by
    match rest with
    | [] => exact ⟨_, rfl⟩
    | [_] => exact ⟨_, rfl⟩
    | _ :: _ :: _ => exact ⟨_, rfl⟩
  obtain ⟨letters, hletters⟩ := hfirst
  have hlt : a.toNat / 4 < 64 := by
    have := a.toNat_lt
    omega
  have hkept : (urlsafeB64encode (a :: rest)).rdropWhile (· = '=') ≠ [] := by
    intro hnil
    have hall := List.rdropWhile_eq_nil_iff.mp hnil
    rw [hletters] at hall
    have hpadding := hall (sextet (a.toNat / 4)) List.mem_cons_self
    exact sextet_ne_padding hlt (by simpa using hpadding)
  intro hempty
  exact hkept (by simpa [base64url] using congrArg String.toList hempty)

/-! ## The JWK -/

/-- P-256 coordinates are always 256 bits. -/
def coordinateSize : ℕ := 32

/-- `SigningKey.public_jwk()`. -/
def SigningKey.publicJwk (key : SigningKey) : Except Exc Dict := do
  let x ← toBytes coordinateSize key.publicKey.x
  let y ← toBytes coordinateSize key.publicKey.y
  pure [
    ("kty", .str "EC"),
    ("crv", .str "P-256"),
    ("x", .str (base64url x)),
    ("y", .str (base64url y)),
    ("kid", .str key.kid),
    ("use", .str "sig"),
    ("alg", .str "ES256")]

/-- The entries of a JWK that say which P-256 key it is, as RFC 7518 has them. -/
structure PublicKey.DescribedBy (key : PublicKey) (jwk : Dict) : Prop where
  kty : Dict.get jwk "kty" = .str "EC"
  crv : Dict.get jwk "crv" = .str "P-256"
  alg : Dict.get jwk "alg" = .str ALGORITHM
  x : ∃ bytes, toBytes coordinateSize key.x = .ok bytes ∧ Dict.get jwk "x" = .str (base64url bytes)
  y : ∃ bytes, toBytes coordinateSize key.y = .ok bytes ∧ Dict.get jwk "y" = .str (base64url bytes)

/-- The published JWK describes the public key, under the key's own `kid`. -/
theorem SigningKey.describedBy_publicJwk {key : SigningKey} {jwk : Dict}
    (h : key.publicJwk = .ok jwk) :
    key.publicKey.DescribedBy jwk ∧ Dict.get jwk "kid" = .str key.kid := by
  simp only [publicJwk, bind_eq_ok, pure_eq_ok] at h
  obtain ⟨x, hx, y, hy, rfl⟩ := h
  exact ⟨⟨rfl, rfl, rfl, ⟨x, hx, rfl⟩, ⟨y, hy, rfl⟩⟩, rfl⟩

/-! ## The thumbprint -/

/-- The letters of `\uXXXX` for a 16-bit unit. -/
def unicodeEscape (unit : ℕ) : List Char :=
  let digit (n : ℕ) : Char := "0123456789abcdef".toList.getD (n % 16) '0'
  ['\\', 'u', digit (unit / 4096), digit (unit / 256), digit (unit / 16), digit unit]

/-- One character inside a JSON string, with everything but printable ASCII escaped. -/
def jsonEscape (c : Char) : List Char :=
  let n := c.toNat
  if c = '"' ∨ c = '\\' then ['\\', c]
  else if 32 ≤ n ∧ n ≤ 126 then [c]
  else if n = 8 then ['\\', 'b']
  else if n = 9 then ['\\', 't']
  else if n = 10 then ['\\', 'n']
  else if n = 12 then ['\\', 'f']
  else if n = 13 then ['\\', 'r']
  else if n < 65536 then unicodeEscape n
  else unicodeEscape (55296 + (n - 65536) / 1024) ++ unicodeEscape (56320 + (n - 65536) % 1024)

/-- A string as `json.dumps` writes it. -/
def jsonString (s : String) : String :=
  "\"" ++ String.ofList (s.toList.flatMap jsonEscape) ++ "\""

/-- `json.dumps(members, sort_keys=True, separators=(",", ":"))` of strings. -/
def canonicalJson (members : List (String × String)) : String :=
  let entries := (members.insertionSort fun a b => a.1 ≤ b.1).map fun member =>
    jsonString member.1 ++ ":" ++ jsonString member.2
  "\x7b" ++ ",".intercalate entries ++ "\x7d"

/-- `hashlib.sha256(data).digest()`. -/
structure Sha256 where
  digest : List UInt8 → List UInt8
  length_digest : ∀ data, (digest data).length = 32

/-- `KeyStore._kid_for(private_key)`. -/
def kidFor (sha256 : Sha256) (privateKey : PrivateKey) : Except Exc String := do
  let numbers := privateKey.publicKey
  let x ← toBytes coordinateSize numbers.x
  let y ← toBytes coordinateSize numbers.y
  let canonicalJwk := canonicalJson
    [("crv", "P-256"), ("kty", "EC"), ("x", base64url x), ("y", base64url y)]
  pure (base64url (sha256.digest canonicalJwk.toUTF8.data.toList))

/-- `SigningKey(private_key=private_key, kid=_kid_for(private_key))`, as the key
store builds every key. -/
def SigningKey.FromStore (sha256 : Sha256) (key : SigningKey) : Prop :=
  kidFor sha256 key.privateKey = .ok key.kid

instance (sha256 : Sha256) (key : SigningKey) : Decidable (key.FromStore sha256) :=
  inferInstanceAs (Decidable (kidFor sha256 key.privateKey = .ok key.kid))

/-- A key that has a `kid` can be published. -/
theorem SigningKey.FromStore.publicJwk {sha256 : Sha256} {key : SigningKey}
    (h : key.FromStore sha256) : ∃ jwk, key.publicJwk = .ok jwk := by
  simp only [FromStore, kidFor, bind_eq_ok, pure_eq_ok] at h
  obtain ⟨x, hx, y, hy, _⟩ := h
  simp only [SigningKey.publicJwk, bind_eq_ok, pure_eq_ok]
  exact ⟨_, x, hx, y, hy, rfl⟩

/-- A `kid` is never empty. -/
theorem SigningKey.FromStore.kid_ne_empty {sha256 : Sha256} {key : SigningKey}
    (h : key.FromStore sha256) : key.kid ≠ "" := by
  simp only [FromStore, kidFor, bind_eq_ok, pure_eq_ok] at h
  obtain ⟨x, _, y, _, hkid⟩ := h
  rw [← hkid]
  apply base64url_ne_empty
  intro hnil
  have hlength := sha256.length_digest
    (canonicalJson [("crv", "P-256"), ("kty", "EC"), ("x", base64url x),
      ("y", base64url y)]).toUTF8.data.toList
  rw [hnil] at hlength
  exact absurd hlength (by decide)

/-! ## A key to publish -/

namespace Example

/-- The key whose private scalar is one: its public key is the base point. -/
def basePointKey : SigningKey where
  privateKey := {
    scalar := 1
    publicKey := {
      x := 48439561293906451759052585252797914202762949526041747995844080717082404635286
      y := 36134250956749795798585127919587881956611106672985015071877198253568414405109 } }
  kid := "xx0BcA-wMohw8atYDJOe6peGModklG2wRHBlXHMvl0M"

/-- The digest of the canonical JWK of the base point. -/
def basePointSha256 : Sha256 where
  digest _ := [199, 29, 1, 112, 15, 176, 50, 136, 112, 241, 171, 88, 12, 147, 158, 234, 151, 134, 50,
    135, 100, 148, 109, 176, 68, 112, 101, 92, 115, 47, 151, 67]
  length_digest _ := rfl

theorem basePointKey_fromStore : basePointKey.FromStore basePointSha256 := by decide +kernel

end Example

end AgentOAuth
