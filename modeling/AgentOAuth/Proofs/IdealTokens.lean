import AgentOAuth.Proofs.MintVerify
import Mathlib.Data.Rat.Encodable
import Mathlib.Logic.Equiv.List

/-!
# A PyJWT that signs everything

`TokenBook` signs the tokens of a book and refuses all others, so it cannot
stand for the library where a result asks for more tokens than a book has.
This one signs whatever JSON can express: a token is its own header, payload and
signer, written as one number (`compact`), and is read by undoing that.  The checks
of `jwt.decode` are those of the book.

`Signs` is what results ask of the library beyond `RoundTrips`; this one has both
(`IdealTokens.signs`, `IdealTokens.roundTrips`).
-/

namespace AgentOAuth

open Effect

/-! ## Values that JSON can express -/

namespace Value

mutual
/-- `json.dumps` knows the type, and the types within. -/
def isJson : Value → Bool
  | datetime _ => false
  | list items => itemsJson items
  | dict entries => entriesJson entries
  | _ => true

/-- `json.dumps` writes all the items. -/
def itemsJson : List Value → Bool
  | [] => true
  | a :: as => isJson a && itemsJson as

/-- `json.dumps` writes all the entries. -/
def entriesJson : List (String × Value) → Bool
  | [] => true
  | (_, a) :: as => isJson a && entriesJson as
end

/-! ## Values as numbers -/

/-- A text as one number. -/
def code (s : String) : ℕ :=
  Encodable.encode (s.toList.map Char.toNat)

mutual
/-- The value, written so that it can be told where it ends. -/
def write : Value → List ℕ
  | null => [0]
  | bool b => [1, b.toNat]
  | int n => [2, Encodable.encode n]
  | float q => [3, Encodable.encode q]
  | str s => [4, code s]
  | datetime t => [5, Encodable.encode t]
  | list items => 6 :: writeItems items
  | dict entries => 7 :: writeEntries entries

/-- The items, each announced, up to the end mark. -/
def writeItems : List Value → List ℕ
  | [] => [0]
  | a :: as => 1 :: (write a ++ writeItems as)

/-- The entries, each announced, up to the end mark. -/
def writeEntries : List (String × Value) → List ℕ
  | [] => [0]
  | (k, a) :: as => 1 :: code k :: (write a ++ writeEntries as)
end

theorem code_injective : Function.Injective code := by
  intro s t h
  have hchars : s.toList.map Char.toNat = t.toList.map Char.toNat := Encodable.encode_injective h
  have htoNat : Function.Injective Char.toNat := fun c d hcd => by
    rw [← Char.ofNat_toNat c, ← Char.ofNat_toNat d, hcd]
  exact String.toList_injective (List.map_injective_iff.mpr htoNat hchars)

mutual
theorem write_append_inj : ∀ (a b : Value) (r r' : List ℕ),
    write a ++ r = write b ++ r' → a = b ∧ r = r'
  | null, b, r, r', h => by cases b <;> simp_all [write]
  | bool a, b, r, r', h => by
      cases b with
      | bool b => cases a <;> cases b <;> simp_all [write]
      | _ => simp [write] at h
  | int n, b, r, r', h => by cases b <;> simp_all [write]
  | float q, b, r, r', h => by cases b <;> simp_all [write]
  | str s, b, r, r', h => by cases b <;> simp_all [write, code_injective.eq_iff]
  | datetime t, b, r, r', h => by cases b <;> simp_all [write]
  | list items, b, r, r', h => by
      cases b with
      | list others =>
          obtain ⟨rfl, rfl⟩ := writeItems_append_inj items others r r' (by simpa [write] using h)
          exact ⟨rfl, rfl⟩
      | _ => simp [write] at h
  | dict entries, b, r, r', h => by
      cases b with
      | dict others =>
          obtain ⟨rfl, rfl⟩ :=
            writeEntries_append_inj entries others r r' (by simpa [write] using h)
          exact ⟨rfl, rfl⟩
      | _ => simp [write] at h

theorem writeItems_append_inj : ∀ (as bs : List Value) (r r' : List ℕ),
    writeItems as ++ r = writeItems bs ++ r' → as = bs ∧ r = r'
  | [], [], r, r', h => by simpa [writeItems] using h
  | [], b :: bs, r, r', h => by simp [writeItems] at h
  | a :: as, [], r, r', h => by simp [writeItems] at h
  | a :: as, b :: bs, r, r', h => by
      simp only [writeItems, List.cons_append, List.append_assoc, List.cons.injEq, true_and] at h
      obtain ⟨rfl, hrest⟩ := write_append_inj a b _ _ h
      obtain ⟨rfl, rfl⟩ := writeItems_append_inj as bs r r' hrest
      exact ⟨rfl, rfl⟩

theorem writeEntries_append_inj : ∀ (as bs : List (String × Value)) (r r' : List ℕ),
    writeEntries as ++ r = writeEntries bs ++ r' → as = bs ∧ r = r'
  | [], [], r, r', h => by simpa [writeEntries] using h
  | [], (_, b) :: bs, r, r', h => by simp [writeEntries] at h
  | (_, a) :: as, [], r, r', h => by simp [writeEntries] at h
  | (k, a) :: as, (l, b) :: bs, r, r', h => by
      simp only [writeEntries, List.cons_append, List.append_assoc, List.cons.injEq, true_and,
        code_injective.eq_iff] at h
      obtain ⟨rfl, hvalue⟩ := h
      obtain ⟨rfl, hrest⟩ := write_append_inj a b _ _ hvalue
      obtain ⟨rfl, rfl⟩ := writeEntries_append_inj as bs r r' hrest
      exact ⟨rfl, rfl⟩
end

end Value

/-! ## Tokens -/

/-- Header, payload and signer as one string. -/
def compact (header payload : Dict) (signer : PublicKey) : String :=
  String.ofList (List.replicate (Encodable.encode
    (Value.writeEntries header ++ (Value.writeEntries payload ++ [signer.x, signer.y])) + 1) 'a')

theorem compact_ne (header payload : Dict) (signer : PublicKey) :
    compact header payload signer ≠ "" := by
  intro h
  have hlength := congrArg String.length h
  simp [compact] at hlength

theorem compact_inj {header header' payload payload' : Dict} {signer signer' : PublicKey}
    (h : compact header payload signer = compact header' payload' signer') :
    header = header' ∧ payload = payload' ∧ signer = signer' := by
  have hlength := congrArg String.length h
  simp only [compact, String.length_ofList, List.length_replicate, Nat.add_right_cancel_iff] at hlength
  obtain ⟨hheader, hrest⟩ := Value.writeEntries_append_inj _ _ _ _ (Encodable.encode_injective hlength)
  -- each part is told apart from the rest that follows it
  obtain ⟨hpayload, hkey⟩ := Value.writeEntries_append_inj _ _ _ _ hrest
  obtain ⟨x, y⟩ := signer
  obtain ⟨x', y'⟩ := signer'
  simp only [List.cons.injEq, and_true] at hkey
  exact ⟨hheader, hpayload, by rw [hkey.1, hkey.2]⟩

/-- The string is the token of the entry. -/
def BookEntry.Sealed (entry : BookEntry) (token : String) : Prop :=
  entry.token = token ∧ token = compact entry.header entry.payload entry.signer

theorem BookEntry.Sealed.unique {entry entry' : BookEntry} {token : String}
    (h : entry.Sealed token) (h' : entry'.Sealed token) : entry = entry' := by
  obtain ⟨rfl, hseal⟩ := h
  obtain ⟨htoken, hseal'⟩ := h'
  obtain ⟨hheader, hpayload, hsigner⟩ := compact_inj (hseal.symm.trans hseal')
  cases entry
  cases entry'
  simp_all

namespace IdealTokens

open Classical in
/-- The entry of a token. -/
noncomputable def lookup (token : String) : Except JwtExc BookEntry :=
  if h : ∃ entry : BookEntry, entry.Sealed token then .ok h.choose else .error .invalidToken

theorem lookup_eq_ok {token : String} {entry : BookEntry} :
    lookup token = .ok entry ↔ entry.Sealed token := by
  unfold lookup
  split
  · next h =>
      rw [Except.ok.injEq]
      constructor
      · rintro rfl
        exact h.choose_spec
      · exact fun hentry => h.choose_spec.unique hentry
  · next h =>
      simp only [reduceCtorEq, false_iff]
      exact fun hentry => h ⟨entry, hentry⟩

/-- What `jwt.decode` asks of an entry; an empty `aud` counts as none. -/
def accepts (options : DecodeOptions) (key : PublicKey) (now : ℚ) (entry : BookEntry) : Prop :=
  TokenBook.accepts options key now entry = true ∧
    ¬ (options.verifyAud = true ∧ Dict.get entry.payload "aud" = .str "")

open Classical in
/-- `jwt.decode`. -/
noncomputable def decode (options : DecodeOptions) (key : PublicKey) (now : ℚ) (token : String) :
    Except JwtExc Dict := do
  let entry ← lookup token
  if accepts options key now entry then .ok entry.payload else .error .invalidToken

theorem decode_eq_ok {options : DecodeOptions} {key : PublicKey} {now : ℚ} {token : String}
    {claims : Dict} : decode options key now token = .ok claims ↔
      ∃ entry : BookEntry, entry.Sealed token ∧ accepts options key now entry ∧
        entry.payload = claims := by
  simp only [decode, bind_eq_ok, lookup_eq_ok]
  refine exists_congr fun entry => and_congr_right fun _ => ?_
  split
  · next h => simp [h]
  · next h => simp [h]

/-- `jwt.encode`. -/
def encode (payload : Dict) (key : PrivateKey) (headers : Dict) : Except JwtExc String :=
  if Value.entriesJson (signedPayload payload) then
    .ok (compact (TokenBook.encodedHeader headers) (signedPayload payload) key.publicKey)
  else .error (.other "TypeError")

/-- The entry that a call of `jwt.encode` makes. -/
def entryOf (payload : Dict) (key : PrivateKey) (headers : Dict) (token : String) : BookEntry :=
  ⟨token, TokenBook.encodedHeader headers, signedPayload payload, key.publicKey⟩

theorem encode_eq_ok {payload headers : Dict} {key : PrivateKey} {token : String}
    (h : encode payload key headers = .ok token) :
    (entryOf payload key headers token).Sealed token := by
  unfold encode at h
  split at h
  · exact ⟨rfl, (Except.ok.inj h).symm⟩
  · cases h

/-- The library over a list of known JWKs. -/
noncomputable def pyJwt (jwks : List (Dict × PublicKey)) : PyJwt where
  getUnverifiedHeader token := (lookup token).map BookEntry.header
  decodeUnverified token := (lookup token).map BookEntry.payload
  keyOfJwk jwk :=
    match jwks.lookup jwk with
    | some key => .ok key
    | none => .error .pyJwk
  decode := decode
  encode := encode
  signedBy key token := ∃ entry : BookEntry, entry.Sealed token ∧ entry.signer = key
  encode_claims h := map_eq_ok.mpr ⟨_, lookup_eq_ok.mpr (encode_eq_ok h), rfl⟩
  decode_claims h := by
    obtain ⟨entry, hentry, _, rfl⟩ := decode_eq_ok.mp h
    exact map_eq_ok.mpr ⟨entry, lookup_eq_ok.mpr hentry, rfl⟩
  decode_signed h := by
    obtain ⟨entry, hentry, haccepts, _⟩ := decode_eq_ok.mp h
    obtain ⟨haccepts, _⟩ := haccepts
    simp only [TokenBook.accepts, Bool.and_eq_true, decide_eq_true_eq] at haccepts
    exact ⟨entry, hentry, by tauto⟩
  decode_required {options key now token claims} h name hname := by
    obtain ⟨entry, _, haccepts, rfl⟩ := decode_eq_ok.mp h
    obtain ⟨haccepts, _⟩ := haccepts
    simp only [TokenBook.accepts, Bool.and_eq_true, List.all_eq_true, decide_eq_true_eq] at haccepts
    have hrequire : ∀ name ∈ options.require, Dict.get entry.payload name ≠ .null := by tauto
    exact hrequire name hname
  decode_exp h exp hexp := by
    obtain ⟨entry, _, haccepts, rfl⟩ := decode_eq_ok.mp h
    obtain ⟨haccepts, _⟩ := haccepts
    simp only [TokenBook.accepts, Bool.and_eq_true] at haccepts
    exact TokenBook.alive_of_number (by tauto) hexp
  decode_text h name hname hne := by
    obtain ⟨entry, _, haccepts, rfl⟩ := decode_eq_ok.mp h
    obtain ⟨haccepts, _⟩ := haccepts
    simp only [TokenBook.accepts, Bool.and_eq_true] at haccepts
    refine TokenBook.textOrAbsent_eq_true ?_ hne
    rcases List.mem_cons.mp hname with rfl | hname
    · tauto
    · obtain rfl := List.mem_singleton.mp hname
      tauto

end IdealTokens

/-! ## What it is for -/

/-- `jwt.encode` signs what JSON can express, for an issuer that is a string. -/
def PyJwt.Signs (jwt : PyJwt) : Prop :=
  ∀ payload key kid issuer, Dict.get payload "iss" = .str issuer →
    Value.entriesJson (signedPayload payload) = true →
      ∃ token, jwt.encode payload key (mintedHeaders kid) = .ok token ∧ token ≠ ""

namespace IdealTokens

theorem signs (jwks : List (Dict × PublicKey)) : (pyJwt jwks).Signs :=
  fun _ _ _ _ _ hjson => ⟨_, if_pos hjson, compact_ne _ _ _⟩

theorem inOrder_entryOf {payload : Dict} {key : PrivateKey} {kid token : String}
    {options : DecodeOptions} {now : ℚ} (h : RegisteredClaims (signedPayload payload)) :
    accepts options key.publicKey now (entryOf payload key (mintedHeaders kid) token) ↔
      options.InOrder now (signedPayload payload) := by
  have halg : Dict.get (entryOf payload key (mintedHeaders kid) token).header "alg" =
      .str ALGORITHM := (TokenBook.get_encodedHeader kid).1
  exact TokenBook.accepts_iff_inOrder halg h

theorem roundTrips (jwks : List (Dict × PublicKey)) : (pyJwt jwks).RoundTrips where
  header h :=
    ⟨_, map_eq_ok.mpr ⟨_, lookup_eq_ok.mpr (encode_eq_ok h), rfl⟩, TokenBook.get_encodedHeader _⟩
  accept h hregistered hin :=
    decode_eq_ok.mpr ⟨_, encode_eq_ok h, (inOrder_entryOf hregistered).mpr hin, rfl⟩
  refuse {payload key kid token options now} h hregistered hout := by
    have hnot : ¬ accepts options key.publicKey now (entryOf payload key (mintedHeaders kid) token) :=
      fun haccepts => hout ((inOrder_entryOf hregistered).mp haccepts)
    change decode options key.publicKey now token = .error .invalidToken
    rw [decode, bind_of_ok (lookup_eq_ok.mpr (encode_eq_ok h))]
    exact if_neg hnot

end IdealTokens

/-! ## What the server signs -/

theorem Dict.entriesJson_set {d : Dict} {name : String} {v : Value}
    (hd : Value.entriesJson d = true) (hv : v.isJson = true) :
    Value.entriesJson (d.set name v) = true := by
  induction d with
  | nil => simp [Dict.set, Value.entriesJson, hv]
  | cons entry rest ih =>
      obtain ⟨k, u⟩ := entry
      simp only [Value.entriesJson, Bool.and_eq_true] at hd
      unfold Dict.set
      split
      · simp [Value.entriesJson, hv, hd.2]
      · simp [Value.entriesJson, hd.1, ih hd.2]

theorem Dict.entriesJson_setSome {d : Dict} {name : String} {v : Option Value}
    (hd : Value.entriesJson d = true) (hv : ∀ u, v = some u → u.isJson = true) :
    Value.entriesJson (d.setSome name v) = true := by
  cases v with
  | none => exact hd
  | some u => exact Dict.entriesJson_set hd (hv u rfl)

/-- What the pipeline writes is JSON, if the chain it nests is. -/
theorem IssuancePipeline.entriesJson_claims (pipeline : IssuancePipeline) {result : GrantResult}
    (hextra : result.extraClaims = []) (subject scope : String)
    (hact : ∀ act, result.act = some act → Value.entriesJson act = true) :
    Value.entriesJson (pipeline.claims result subject scope) = true := by
  rw [claims, hextra]
  refine Dict.entriesJson_setSome (Dict.entriesJson_setSome (Dict.entriesJson_setSome
    (Dict.entriesJson_setSome rfl ?_) ?_) ?_) ?_
  · intro u hu
    split at hu
    · cases hu
    · obtain rfl := Option.some.inj hu
      rfl
  · intro u hu
    obtain ⟨act, hsome, rfl⟩ := Option.map_eq_some_iff.mp hu
    exact hact act hsome
  · intro u hu
    obtain ⟨taskId, _, rfl⟩ := Option.map_eq_some_iff.mp hu
    rfl
  · intro u hu
    obtain ⟨tenant, _, rfl⟩ := Option.map_eq_some_iff.mp hu
    rfl

theorem numericDate_of_isJson {v : Value} (h : v.isJson = true) (name : String) :
    numericDate name v = v := by
  cases v with
  | datetime t => simp [Value.isJson] at h
  | _ => rfl

theorem signedPayload_set (d : Dict) (name : String) (v : Value) :
    signedPayload (d.set name v) = (signedPayload d).set name (numericDate name v) := by
  induction d with
  | nil => rfl
  | cons entry rest ih =>
      obtain ⟨k, u⟩ := entry
      by_cases hk : k = name
      · simp [Dict.set, signedPayload, hk]
      · simp only [signedPayload] at ih
        simp [Dict.set, signedPayload, hk, ih]

theorem Dict.entriesJson_update {d other : Dict}
    (hd : Value.entriesJson (signedPayload d) = true) (hother : Value.entriesJson other = true) :
    Value.entriesJson (signedPayload (d.update other)) = true := by
  induction other generalizing d with
  | nil => exact hd
  | cons entry rest ih =>
      obtain ⟨name, v⟩ := entry
      simp only [Value.entriesJson, Bool.and_eq_true] at hother
      apply ih (d := d.set name v) _ hother.2
      rw [signedPayload_set, numericDate_of_isJson hother.1]
      exact Dict.entriesJson_set hd hother.1

/-- The payload of a mint is JSON once the dates are numbers. -/
theorem TokenMinter.entriesJson_fullClaims (minter : TokenMinter) (now : ℚ) (jti : String)
    {claims : Dict} (notAfter : Option ℚ) (hjson : Value.entriesJson claims = true) :
    Value.entriesJson (signedPayload (minter.fullClaims now jti claims none notAfter)) = true :=
  Dict.entriesJson_update
    (by simp [signedPayload, numericDate, Value.entriesJson, Value.isJson]) hjson

theorem entriesJson_nest {claims act : Dict} (h : nest claims = .ok act)
    (hjson : (Dict.get claims ACT_CLAIM).isJson = true) : Value.entriesJson act = true := by
  unfold nest at h
  split at h
  · split at h
    · cases h
    · split at h
      · obtain rfl := Except.ok.inj h
        rfl
      · next existing hexisting =>
          rw [hexisting] at hjson
          obtain rfl := Except.ok.inj h
          simpa [Value.entriesJson, Value.isJson] using hjson
      · cases h
  · cases h

end AgentOAuth
