import AgentOAuth.Lib.Digits
import AgentOAuth.Model.Keys

/-!
# The published key determines the key

`public_jwk` and `_kid_for` encode the coordinates of a key separately.  A reader
of the JWK undoes the encoding: the decoders below are those of RFC 4648 and of
`int.from_bytes`, and they give back every coordinate, leading zero bytes
included (`coordinateOf_encoded`).  The members of the JWK that RFC 7638 names,
serialised again, are the text that the `kid` is a digest of
(`thumbprintText_publicJwk`), and two keys with one such text are one key
(`publicKey_eq_of_thumbprintText`).
-/

namespace AgentOAuth

open Digits Effect

/-! ## Decoding base64url -/

/-- The six bits a letter stands for. -/
def letterBits (c : Char) : Option ℕ :=
  if c ∈ urlsafeAlphabet then some (urlsafeAlphabet.idxOf c) else none

/-- Base64url without padding: four letters become three bytes, and two or
three letters at the end one or two. -/
def base64urlDecode : List Char → Option (List UInt8)
  | a :: b :: c :: d :: rest => do
      let a ← letterBits a
      let b ← letterBits b
      let c ← letterBits c
      let d ← letterBits d
      let bytes ← base64urlDecode rest
      pure (UInt8.ofNat (a * 4 + b / 16) :: UInt8.ofNat (b % 16 * 16 + c / 4) ::
        UInt8.ofNat (c % 4 * 64 + d) :: bytes)
  | [a, b, c] => do
      let a ← letterBits a
      let b ← letterBits b
      let c ← letterBits c
      pure [UInt8.ofNat (a * 4 + b / 16), UInt8.ofNat (b % 16 * 16 + c / 4)]
  | [a, b] => do
      let a ← letterBits a
      let b ← letterBits b
      pure [UInt8.ofNat (a * 4 + b / 16)]
  | [_] => none
  | [] => some []

/-- The letters of a value, without the padding. -/
def unpadded : List UInt8 → List Char
  | a :: b :: c :: rest =>
      sextet (a.toNat / 4) :: sextet (a.toNat % 4 * 16 + b.toNat / 16) ::
        sextet (b.toNat % 16 * 4 + c.toNat / 64) :: sextet (c.toNat % 64) :: unpadded rest
  | [a, b] =>
      [sextet (a.toNat / 4), sextet (a.toNat % 4 * 16 + b.toNat / 16), sextet (b.toNat % 16 * 4)]
  | [a] => [sextet (a.toNat / 4), sextet (a.toNat % 4 * 16)]
  | [] => []

theorem length_urlsafeAlphabet : urlsafeAlphabet.length = 64 := by decide +kernel

theorem nodup_urlsafeAlphabet : urlsafeAlphabet.Nodup := by decide +kernel

theorem sextet_eq_getElem {n : ℕ} (h : n < urlsafeAlphabet.length) :
    sextet n = urlsafeAlphabet[n] := by
  rw [sextet, List.getD_eq_getElem?_getD, List.getElem?_eq_getElem h, Option.getD_some]

theorem sextet_mem {n : ℕ} (h : n < 64) : sextet n ∈ urlsafeAlphabet := by
  rw [← length_urlsafeAlphabet] at h
  rw [sextet_eq_getElem h]
  exact List.getElem_mem h

theorem letterBits_sextet {n : ℕ} (h : n < 64) : letterBits (sextet n) = some n := by
  rw [letterBits, if_pos (sextet_mem h)]
  rw [← length_urlsafeAlphabet] at h
  rw [sextet_eq_getElem h, nodup_urlsafeAlphabet.idxOf_getElem]

theorem exists_sextet {c : Char} (h : c ∈ urlsafeAlphabet) : ∃ n < 64, c = sextet n := by
  have hlt : urlsafeAlphabet.idxOf c < urlsafeAlphabet.length := List.idxOf_lt_length_iff.mpr h
  refine ⟨urlsafeAlphabet.idxOf c, length_urlsafeAlphabet ▸ hlt, ?_⟩
  rw [sextet_eq_getElem hlt, List.getElem_idxOf]

/-- Two or three letters at the end are followed by padding. -/
theorem urlsafeB64encode_eq (value : List UInt8) :
    ∃ padding, urlsafeB64encode value = unpadded value ++ padding ∧ ∀ c ∈ padding, c = '=' := by
  induction value using urlsafeB64encode.induct with
  | case1 a b c rest ih =>
      obtain ⟨padding, hencode, hpadding⟩ := ih
      refine ⟨padding, ?_, hpadding⟩
      rw [urlsafeB64encode, unpadded, hencode]
      rfl
  | case2 a b => exact ⟨['='], rfl, by simp⟩
  | case3 a => exact ⟨['=', '='], rfl, by simp⟩
  | case4 => exact ⟨[], rfl, by simp⟩

theorem unpadded_mem (value : List UInt8) : ∀ c ∈ unpadded value, c ∈ urlsafeAlphabet := by
  induction value using unpadded.induct with
  | case1 a b c rest ih =>
      have ha := a.toNat_lt
      have hb := b.toNat_lt
      have hc := c.toNat_lt
      rw [unpadded]
      simp only [List.forall_mem_cons]
      refine ⟨sextet_mem ?_, sextet_mem ?_, sextet_mem ?_, sextet_mem ?_, ih⟩ <;> omega
  | case2 a b =>
      have ha := a.toNat_lt
      have hb := b.toNat_lt
      rw [unpadded]
      simp only [List.forall_mem_cons]
      refine ⟨sextet_mem ?_, sextet_mem ?_, sextet_mem ?_, List.forall_mem_nil _⟩ <;> omega
  | case3 a =>
      have ha := a.toNat_lt
      rw [unpadded]
      simp only [List.forall_mem_cons]
      refine ⟨sextet_mem ?_, sextet_mem ?_, List.forall_mem_nil _⟩ <;> omega
  | case4 => exact List.forall_mem_nil _

theorem length_unpadded (value : List UInt8) :
    (unpadded value).length = (4 * value.length + 2) / 3 := by
  induction value using unpadded.induct with
  | case1 a b c rest ih =>
      simp only [unpadded, List.length_cons, ih]
      omega
  | case2 a b => simp [unpadded]
  | case3 a => simp [unpadded]
  | case4 => rfl

theorem ofNat_eq_of_toNat {byte : UInt8} {n : ℕ} (h : n = byte.toNat) : UInt8.ofNat n = byte := by
  rw [h, UInt8.ofNat_toNat]

/-- **Decoding undoes encoding.** -/
theorem base64urlDecode_unpadded (value : List UInt8) :
    base64urlDecode (unpadded value) = some value := by
  induction value using unpadded.induct with
  | case1 a b c rest ih =>
      have ha := a.toNat_lt
      have hb := b.toNat_lt
      have hc := c.toNat_lt
      -- three bytes are four letters, and each byte is put together from two of them
      rw [unpadded, base64urlDecode, letterBits_sextet (by omega), letterBits_sextet (by omega),
        letterBits_sextet (by omega), letterBits_sextet (by omega), ih]
      simp only [Option.bind_eq_bind, Option.bind_some, Option.pure_def, Option.some.injEq]
      congr 1
      · exact ofNat_eq_of_toNat (by omega)
      congr 1
      · exact ofNat_eq_of_toNat (by omega)
      congr 1
      exact ofNat_eq_of_toNat (by omega)
  | case2 a b =>
      have ha := a.toNat_lt
      have hb := b.toNat_lt
      rw [unpadded, base64urlDecode, letterBits_sextet (by omega), letterBits_sextet (by omega),
        letterBits_sextet (by omega)]
      simp only [Option.bind_eq_bind, Option.bind_some, Option.pure_def, Option.some.injEq]
      congr 1
      · exact ofNat_eq_of_toNat (by omega)
      congr 1
      exact ofNat_eq_of_toNat (by omega)
  | case3 a =>
      have ha := a.toNat_lt
      rw [unpadded, base64urlDecode, letterBits_sextet (by omega), letterBits_sextet (by omega)]
      simp only [Option.bind_eq_bind, Option.bind_some, Option.pure_def, Option.some.injEq]
      congr 1
      exact ofNat_eq_of_toNat (by omega)
  | case4 => rfl

theorem rdropWhile_append {p : Char → Bool} {letters padding : List Char}
    (hletters : ∀ c ∈ letters, p c = false) (hpadding : ∀ c ∈ padding, p c = true) :
    (letters ++ padding).rdropWhile p = letters := by
  induction padding using List.reverseRecOn with
  | nil =>
      rw [List.append_nil, List.rdropWhile_eq_self_iff]
      intro hne
      simp [hletters _ (List.getLast_mem hne)]
  | append_singleton padding c ih =>
      rw [← List.append_assoc, List.rdropWhile_concat_pos _ _ _ (hpadding c (by simp))]
      apply ih
      intro d hd
      exact hpadding d (List.mem_append_left _ hd)

theorem toList_base64url (value : List UInt8) : (base64url value).toList = unpadded value := by
  obtain ⟨padding, hencode, hpadding⟩ := urlsafeB64encode_eq value
  have hletters : ∀ c ∈ unpadded value, c ≠ '=' := by
    intro c hc
    obtain ⟨n, hn, rfl⟩ := exists_sextet (unpadded_mem value c hc)
    exact sextet_ne_padding hn
  rw [base64url, String.toList_ofList, hencode]
  apply rdropWhile_append
  · intro c hc
    simpa using hletters c hc
  · intro c hc
    simpa using hpadding c hc

theorem base64url_injective : Function.Injective base64url := by
  intro value value' h
  have hletters : unpadded value = unpadded value' := by
    rw [← toList_base64url, ← toList_base64url, h]
  have hread := base64urlDecode_unpadded value
  rw [hletters, base64urlDecode_unpadded] at hread
  exact (Option.some.inj hread).symm

/-! ## Coordinates -/

/-- `int.from_bytes(value, "big")`. -/
def fromBytes (value : List UInt8) : ℕ := ofDigits 256 (value.map UInt8.toNat)

/-- The number that a JWK writes as a coordinate: 32 bytes, in base64url. -/
def coordinateOf (text : String) : Option ℕ := do
  let bytes ← base64urlDecode text.toList
  if bytes.length = coordinateSize then some (fromBytes bytes) else none

theorem toBytes_eq_ok {length n : ℕ} {bytes : List UInt8} :
    toBytes length n = .ok bytes ↔
      n < 256 ^ length ∧ bytes = (digits 256 length n).map UInt8.ofNat := by
  unfold toBytes digits
  split
  · next h => simp [h, Function.comp_def, eq_comm]
  · next h => simp [h]

theorem fromBytes_toBytes {length n : ℕ} {bytes : List UInt8} (h : toBytes length n = .ok bytes) :
    fromBytes bytes = n ∧ bytes.length = length := by
  obtain ⟨hlt, rfl⟩ := toBytes_eq_ok.mp h
  have hbytes : ((digits 256 length n).map UInt8.ofNat).map UInt8.toNat = digits 256 length n := by
    calc ((digits 256 length n).map UInt8.ofNat).map UInt8.toNat
        = (digits 256 length n).map id := by
          rw [List.map_map]
          apply List.map_congr_left
          intro digit hdigit
          exact UInt8.toNat_ofNat_of_lt' (mem_digits_lt (by decide) hdigit)
      _ = digits 256 length n := List.map_id _
  constructor
  · rw [fromBytes, hbytes, ofDigits_digits_of_lt hlt]
  · simp [digits]

/-- **A published coordinate is read back.** -/
theorem coordinateOf_encoded {n : ℕ} {bytes : List UInt8}
    (h : toBytes coordinateSize n = .ok bytes) : coordinateOf (base64url bytes) = some n := by
  obtain ⟨hvalue, hlength⟩ := fromBytes_toBytes h
  rw [coordinateOf, toList_base64url, base64urlDecode_unpadded]
  simp only [Option.bind_eq_bind, Option.bind_some, hlength, if_true, hvalue]

theorem eq_of_encoded {n n' : ℕ} {bytes bytes' : List UInt8}
    (h : toBytes coordinateSize n = .ok bytes) (h' : toBytes coordinateSize n' = .ok bytes')
    (hsame : base64url bytes = base64url bytes') : n = n' := by
  have hread := coordinateOf_encoded h
  rw [hsame, coordinateOf_encoded h'] at hread
  exact (Option.some.inj hread).symm

/-! ## The thumbprint -/

/-- A member of a JWK that RFC 7638 takes into the thumbprint of an EC key. -/
def thumbprintMember : String × Value → Option (String × String)
  | (name, .str text) => if name ∈ ["crv", "kty", "x", "y"] then some (name, text) else none
  | _ => none

/-- The text that the thumbprint of a JWK is a digest of. -/
def thumbprintText (jwk : Dict) : String := canonicalJson (jwk.filterMap thumbprintMember)

/-- The text for the coordinates `x` and `y`. -/
def keyText (x y : String) : String :=
  canonicalJson [("crv", "P-256"), ("kty", "EC"), ("x", x), ("y", y)]

/-- The members are sorted, so their order in the JWK plays no part. -/
theorem canonicalJson_members (x y : String) :
    canonicalJson [("kty", "EC"), ("crv", "P-256"), ("x", x), ("y", y)] = keyText x y := by
  simp [keyText, canonicalJson, List.insertionSort, List.orderedInsert]

/-- What `public_jwk` publishes and `_kid_for` digests. -/
theorem publicJwk_eq_ok {key : SigningKey} {jwk : Dict} :
    key.publicJwk = .ok jwk ↔ ∃ x y, toBytes coordinateSize key.publicKey.x = .ok x ∧
      toBytes coordinateSize key.publicKey.y = .ok y ∧ jwk = [
        ("kty", .str "EC"), ("crv", .str "P-256"), ("x", .str (base64url x)),
        ("y", .str (base64url y)), ("kid", .str key.kid), ("use", .str "sig"),
        ("alg", .str "ES256")] := by
  simp only [SigningKey.publicJwk, bind_eq_ok, pure_eq_ok]
  constructor
  · intro h
    obtain ⟨x, hx, y, hy, rfl⟩ := h
    exact ⟨x, y, hx, hy, rfl⟩
  · intro h
    obtain ⟨x, y, hx, hy, rfl⟩ := h
    exact ⟨x, hx, y, hy, rfl⟩

/-! ## Reading the text back -/

/-- Letters of base64url need no escape. -/
theorem toList_jsonString {text : String} (h : ∀ c ∈ text.toList, c ∈ urlsafeAlphabet) :
    (jsonString text).toList = '"' :: (text.toList ++ ['"']) := by
  have hsextet : ∀ i : Fin 64, jsonEscape (sextet i) = [sextet i] := by decide +kernel
  have hplain : ∀ c ∈ urlsafeAlphabet, jsonEscape c = [c] := by
    intro c hc
    obtain ⟨n, hn, rfl⟩ := exists_sextet hc
    exact hsextet ⟨n, hn⟩
  have hletters : text.toList.flatMap jsonEscape = text.toList := by
    calc text.toList.flatMap jsonEscape
        = text.toList.flatMap fun c => [c] :=
          List.flatMap_congr fun c hc => hplain c (h c hc)
      _ = text.toList := List.flatMap_singleton' _
  simp [jsonString, hletters]

theorem toList_keyText {x y : String} (hx : ∀ c ∈ x.toList, c ∈ urlsafeAlphabet)
    (hy : ∀ c ∈ y.toList, c ∈ urlsafeAlphabet) :
    (keyText x y).toList = "\x7b\"crv\":\"P-256\",\"kty\":\"EC\",\"x\":\"".toList ++
      (x.toList ++ ("\",\"y\":\"".toList ++ (y.toList ++ "\"\x7d".toList))) := by
  have hnames : ∀ name ∈ ["crv", "kty", "x", "y", "P-256", "EC"],
      (jsonString name).toList = '"' :: (name.toList ++ ['"']) := by decide +kernel
  simp only [List.forall_mem_cons] at hnames
  obtain ⟨hcrv, hkty, hxname, hyname, hcurve, htype, _⟩ := hnames
  simp [keyText, canonicalJson, List.insertionSort, hcrv, hkty, hxname, hyname, hcurve, htype,
    toList_jsonString hx, toList_jsonString hy]

theorem base64url_letters (value : List UInt8) :
    ∀ c ∈ (base64url value).toList, c ∈ urlsafeAlphabet := by
  rw [toList_base64url]
  exact unpadded_mem value

/-- **The text determines the coordinates.**  Encoded coordinates all have the
same length, so the text can only be cut in one way. -/
theorem eq_of_keyText {m n m' n' : ℕ} {x y x' y' : List UInt8}
    (hx : toBytes coordinateSize m = .ok x) (hy : toBytes coordinateSize n = .ok y)
    (hx' : toBytes coordinateSize m' = .ok x') (hy' : toBytes coordinateSize n' = .ok y')
    (h : keyText (base64url x) (base64url y) = keyText (base64url x') (base64url y')) :
    m = m' ∧ n = n' := by
  have hlength : ∀ {k : ℕ} {bytes : List UInt8}, toBytes coordinateSize k = .ok bytes →
      (base64url bytes).toList.length = 43 := by
    intro k bytes hbytes
    rw [toList_base64url, length_unpadded, (fromBytes_toBytes hbytes).2]
    rfl
  have htext := congrArg String.toList h
  rw [toList_keyText (base64url_letters x) (base64url_letters y),
    toList_keyText (base64url_letters x') (base64url_letters y')] at htext
  obtain ⟨hsame, hrest⟩ := List.append_inj (List.append_cancel_left htext)
    ((hlength hx).trans (hlength hx').symm)
  obtain ⟨hsame', _⟩ := List.append_inj (List.append_cancel_left hrest)
    ((hlength hy).trans (hlength hy').symm)
  exact ⟨eq_of_encoded hx hx' (String.toList_inj.mp hsame),
    eq_of_encoded hy hy' (String.toList_inj.mp hsame')⟩

/-! ## The published key -/

/-- P-256 coordinates are numbers of 256 bits. -/
def PublicKey.Is256Bit (key : PublicKey) : Prop := key.x < 2 ^ 256 ∧ key.y < 2 ^ 256

/-- The bytes that the `kid` is a digest of. -/
def thumbprintBytes (jwk : Dict) : List UInt8 := (thumbprintText jwk).toUTF8.data.toList

theorem eq_of_thumbprintBytes {jwk jwk' : Dict} (h : thumbprintBytes jwk = thumbprintBytes jwk') :
    thumbprintText jwk = thumbprintText jwk' := by
  apply String.toByteArray_inj.mp
  apply ByteArray.ext
  exact Array.toList_inj.mp h

/-- A JWK tells its reader the coordinates of the key and, whatever the digest
is, what the `kid` is a digest of. -/
structure SigningKey.ReadFrom (key : SigningKey) (jwk : Dict) : Prop where
  x : ∃ text, Dict.get jwk "x" = .str text ∧ coordinateOf text = some key.publicKey.x
  y : ∃ text, Dict.get jwk "y" = .str text ∧ coordinateOf text = some key.publicKey.y
  kid : ∀ sha256 : Sha256,
    kidFor sha256 key.privateKey = .ok (base64url (sha256.digest (thumbprintBytes jwk)))

variable {a b key : SigningKey} {jwk jwk' : Dict}

theorem exists_publicJwk (h : key.publicKey.Is256Bit) : ∃ jwk, key.publicJwk = .ok jwk := by
  have hsize : 256 ^ coordinateSize = 2 ^ 256 := by decide +kernel
  refine ⟨_, publicJwk_eq_ok.mpr ⟨_, _, toBytes_eq_ok.mpr ⟨?_, rfl⟩, toBytes_eq_ok.mpr ⟨?_, rfl⟩,
    rfl⟩⟩
  · rw [hsize]
    exact h.1
  · rw [hsize]
    exact h.2

/-- What is serialised again is what was digested. -/
theorem thumbprintText_publicJwk {x y : List UInt8} (hjwk : key.publicJwk = .ok jwk)
    (hx : toBytes coordinateSize key.publicKey.x = .ok x)
    (hy : toBytes coordinateSize key.publicKey.y = .ok y) :
    thumbprintText jwk = keyText (base64url x) (base64url y) := by
  obtain ⟨x', y', hx', hy', rfl⟩ := publicJwk_eq_ok.mp hjwk
  obtain rfl := Except.ok.inj (hx.symm.trans hx')
  obtain rfl := Except.ok.inj (hy.symm.trans hy')
  exact canonicalJson_members (base64url x) (base64url y)

theorem readFrom_publicJwk (hjwk : key.publicJwk = .ok jwk) : key.ReadFrom jwk := by
  obtain ⟨x, y, hx, hy, heq⟩ := publicJwk_eq_ok.mp hjwk
  refine ⟨⟨base64url x, ?_, coordinateOf_encoded hx⟩,
    ⟨base64url y, ?_, coordinateOf_encoded hy⟩, ?_⟩
  · rw [heq]
    rfl
  · rw [heq]
    rfl
  · intro sha256
    rw [kidFor, bind_eq_ok]
    refine ⟨x, hx, bind_eq_ok.mpr ⟨y, hy, ?_⟩⟩
    rw [thumbprintBytes, thumbprintText_publicJwk hjwk hx hy]
    rfl

theorem publicKey_eq_of_thumbprintText (ha : a.publicJwk = .ok jwk) (hb : b.publicJwk = .ok jwk')
    (h : thumbprintText jwk = thumbprintText jwk') : a.publicKey = b.publicKey := by
  obtain ⟨x, y, hx, hy, _⟩ := publicJwk_eq_ok.mp ha
  obtain ⟨x', y', hx', hy', _⟩ := publicJwk_eq_ok.mp hb
  rw [thumbprintText_publicJwk ha hx hy, thumbprintText_publicJwk hb hx' hy'] at h
  obtain ⟨hsamex, hsamey⟩ := eq_of_keyText hx hy hx' hy' h
  cases hkey : a.publicKey
  cases hkey' : b.publicKey
  simp_all

/-- **The published key determines the key and its `kid`.**  Of two keys with
different coordinates the texts differ, so equal `kid`s mean equal public keys
or two messages with one SHA-256 digest. -/
theorem published_key_exact (ha : a.publicKey.Is256Bit) (hb : b.publicKey.Is256Bit) :
    ∃ jwk jwk', a.publicJwk = .ok jwk ∧ b.publicJwk = .ok jwk' ∧
      a.ReadFrom jwk ∧ b.ReadFrom jwk' ∧
      (a.publicKey ≠ b.publicKey → thumbprintText jwk ≠ thumbprintText jwk') ∧
      ∀ sha256 : Sha256, kidFor sha256 a.privateKey = kidFor sha256 b.privateKey →
        a.publicKey = b.publicKey ∨ thumbprintBytes jwk ≠ thumbprintBytes jwk' ∧
          sha256.digest (thumbprintBytes jwk) = sha256.digest (thumbprintBytes jwk') := by
  obtain ⟨jwk, hjwk⟩ := exists_publicJwk ha
  obtain ⟨jwk', hjwk'⟩ := exists_publicJwk hb
  have hread := readFrom_publicJwk hjwk
  have hread' := readFrom_publicJwk hjwk'
  have hinjective : thumbprintText jwk = thumbprintText jwk' → a.publicKey = b.publicKey :=
    publicKey_eq_of_thumbprintText hjwk hjwk'
  refine ⟨jwk, jwk', hjwk, hjwk', hread, hread', mt hinjective, ?_⟩
  intro sha256 hkid
  rw [hread.kid, hread'.kid, Except.ok.injEq] at hkid
  by_cases hkey : a.publicKey = b.publicKey
  · exact .inl hkey
  · refine .inr ⟨?_, base64url_injective hkid⟩
    intro hbytes
    exact hkey (hinjective (eq_of_thumbprintBytes hbytes))

namespace Example.PublishedKey

/-- A key whose second coordinate starts with a zero byte. -/
def zeroByteKey : SigningKey where
  privateKey := {
    scalar := 43
    publicKey := {
      x := 68940400736695912148960890999721852106142292820061709409680925607912859161229
      y := 107423973961867739917642914452788810230878776317276661678353934116262542999 } }
  kid := "zero"

theorem zeroByteKey_is256Bit : zeroByteKey.publicKey.Is256Bit := by
  constructor <;> decide +kernel

theorem basePointKey_is256Bit : basePointKey.publicKey.Is256Bit := by
  constructor <;> decide +kernel

end Example.PublishedKey

theorem published_key_exact_zeroByteKey :
    ∃ jwk jwk', Example.PublishedKey.zeroByteKey.publicJwk = .ok jwk ∧
      Example.basePointKey.publicJwk = .ok jwk' ∧
      Dict.get jwk "y" = .str "ADzMwKZGDgrjKKTZfTx7YdhvxiicGJ8lJREMRBuwfpc" ∧
      Example.PublishedKey.zeroByteKey.ReadFrom jwk ∧
      thumbprintText jwk ≠ thumbprintText jwk' := by
  obtain ⟨jwk, jwk', hjwk, hjwk', hread, _, hdiffer, _⟩ := published_key_exact
    Example.PublishedKey.zeroByteKey_is256Bit Example.PublishedKey.basePointKey_is256Bit
  have hy : (Example.PublishedKey.zeroByteKey.publicJwk.map fun jwk => Dict.get jwk "y") =
      .ok (.str "ADzMwKZGDgrjKKTZfTx7YdhvxiicGJ8lJREMRBuwfpc") := by
    decide +kernel
  rw [hjwk] at hy
  exact ⟨jwk, jwk', hjwk, hjwk', Except.ok.inj hy, hread, hdiffer (by decide +kernel)⟩

end AgentOAuth
