import AgentOAuth.Lib.Table
import AgentOAuth.Model.Errors
import AgentOAuth.Model.PythonText
import AgentOAuth.Model.Registration

/-!
# The database

`src/storage/repositories.py` and the migrations: one definition for each
statement.  Every statement of the source runs and commits on its own, so what
a request has written stays written when a later step of it raises.

`ServerState.signed` is not in the database: it lists every payload the
signing key was applied to, with the resulting token, so that "nothing was
signed" can be said.
-/

namespace AgentOAuth

open Effect

/-! ## Tables -/

/-- What the server writes down before it hands a token to anybody. -/
structure IssuanceRecord where
  jti : String
  clientId : String
  subject : String
  audience : String
  scope : String
  issuedAt : ℚ
  expiresAt : ℚ
  rootSubject : String
  taskId : Option String := none
  delegationDepth : ℤ := 0
  deriving DecidableEq

/-- A row of `client_assertion_jti`. -/
structure ReplayRow where
  clientId : String
  jti : String
  expiresAt : ℚ
  deriving DecidableEq

/-- `PRIMARY KEY (client_id, kid)`. -/
def ClientKey.primaryKey (key : ClientKey) : String × String := (key.clientId, key.kid)

/-- `PRIMARY KEY (client_id, jti)`. -/
def ReplayRow.primaryKey (row : ReplayRow) : String × String := (row.clientId, row.jti)

/-- The rows of `clients`. -/
abbrev ClientTable := Table RegisteredClient.clientId

/-- The rows of `client_keys`. -/
abbrev ClientKeyTable := Table ClientKey.primaryKey

/-- The rows of `issued_credentials`. -/
abbrev IssuedCredentialTable := Table IssuanceRecord.jti

/-- The rows of `client_assertion_jti`. -/
abbrev ReplayTable := Table ReplayRow.primaryKey

/-- The tables, and what the minter has signed, the last token first. -/
structure ServerState where
  clients : ClientTable := Table.empty
  clientKeys : ClientKeyTable := Table.empty
  assertionJtis : ReplayTable := Table.empty
  issuedCredentials : IssuedCredentialTable := Table.empty
  signed : List (String × Dict) := []

/-- A step of the server: it may raise, and what it wrote stays. -/
abbrev ServerM := EStateM Exc ServerState

/-! ## Text parameters -/

/-- What psycopg raises for a `str`: it cannot encode a surrogate, and after that
refuses NUL, which no text of PostgreSQL holds. -/
def textError? (s : String) : Option String :=
  if ∃ c ∈ codePoints s, c.IsSurrogate then some "UnicodeEncodeError"
  else if ∃ c ∈ codePoints s, c.IsNul then some "DataError"
  else none

/-- The parameters of a statement are converted in order. -/
def textsError? (texts : List String) : Option String := texts.findSome? textError?

/-- A text as the parameter of a statement. -/
def textParameter (s : String) : Except Exc Unit :=
  match textError? s with
  | some className => .error (.python className)
  | none => .ok ()

/-- PostgreSQL can hold the text. -/
def Storable (s : String) : Prop := ∀ c ∈ codePoints s, ¬ c.IsSurrogate ∧ ¬ c.IsNul

instance (s : String) : Decidable (Storable s) :=
  inferInstanceAs (Decidable (∀ c ∈ codePoints s, _ ∧ _))

/-- Of a Python text, any `str` at all, PostgreSQL holds what has neither. -/
theorem storable_spell {text : List CodePoint} :
    Storable (spell text) ↔ ∀ c ∈ text, ¬ c.IsSurrogate ∧ ¬ c.IsNul := by
  rw [Storable, codePoints_spell]

theorem textError?_eq_none {text : String} : textError? text = none ↔ Storable text := by
  unfold textError? Storable
  split
  · next hsurrogate =>
      obtain ⟨c, hc, hsurrogate⟩ := hsurrogate
      simp only [reduceCtorEq, false_iff]
      exact fun h => (h c hc).1 hsurrogate
  · next hscalar =>
      split
      · next hnul =>
          obtain ⟨c, hc, hnul⟩ := hnul
          simp only [reduceCtorEq, false_iff]
          exact fun h => (h c hc).2 hnul
      · next hclean =>
          simp only [true_iff]
          exact fun c hc => ⟨fun h => hscalar ⟨c, hc, h⟩, fun h => hclean ⟨c, hc, h⟩⟩

theorem textsError?_eq_none {texts : List String} :
    textsError? texts = none ↔ ∀ text ∈ texts, Storable text := by
  simp only [textsError?, List.findSome?_eq_none_iff, textError?_eq_none]

theorem textParameter_eq_ok {text : String} : textParameter text = .ok () ↔ Storable text := by
  unfold textParameter
  cases herror : textError? text with
  | some className =>
      have hnot : ¬ Storable text := fun h => by simp [textError?_eq_none.mpr h] at herror
      simp [hnot]
  | none => simp [textError?_eq_none.mp herror]

/-- The driver refuses any other text. -/
theorem textParameter_eq_error {text : String} (h : ¬ Storable text) :
    ∃ className, textParameter text = .error (.python className) := by
  cases herror : textError? text with
  | some className => exact ⟨className, by simp [textParameter, herror]⟩
  | none => exact absurd (textError?_eq_none.mp herror) h

theorem raises_textParameter {P : Exc → Prop} (hpython : ∀ className, P (.python className))
    (text : String) : Raises P (textParameter text) := by
  unfold textParameter
  split
  · exact raises_error (hpython _)
  · exact raises_ok _

theorem returns_textParameter_bind {α : Type} {text : String} {f : Unit → Except Exc α} :
    Returns (textParameter text >>= f) ↔ Storable text ∧ Returns (f ()) := by
  rw [returns_bind]
  constructor
  · rintro ⟨⟨_, htext⟩, hrest⟩
    exact ⟨textParameter_eq_ok.mp htext, hrest () htext⟩
  · rintro ⟨htext, hrest⟩
    exact ⟨⟨(), textParameter_eq_ok.mpr htext⟩, fun _ _ => hrest⟩

/-! ## Clients and their keys -/

namespace ClientTable

/-- `ClientRepository.get(client_id)`. -/
def get (clients : ClientTable) (clientId : String) : Except Exc (Option RegisteredClient) := do
  textParameter clientId
  pure (clients.find clientId)

theorem get_eq_ok_some {clients : ClientTable} {clientId : String} {client : RegisteredClient}
    (h : clients.get clientId = .ok (some client)) : client ∈ clients ∧ client.clientId = clientId := by
  simp only [get, bind_eq_ok, pure_eq_ok] at h
  obtain ⟨_, _, hfind⟩ := h
  exact Table.find_eq_some.mp hfind

/-- No two clients share a subject. -/
def SubjectsUnique (clients : ClientTable) : Prop :=
  (clients.rows.map RegisteredClient.subject).Nodup

instance (clients : ClientTable) : Decidable clients.SubjectsUnique :=
  inferInstanceAs (Decidable (clients.rows.map RegisteredClient.subject).Nodup)

/-- The registration of a subject. -/
def ofSubject (clients : ClientTable) (subject : String) : Option RegisteredClient :=
  clients.rows.find? fun client => client.subject = subject

theorem ofSubject_eq_some {clients : ClientTable} (hunique : clients.SubjectsUnique)
    {subject : String} {client : RegisteredClient} :
    clients.ofSubject subject = some client ↔ client ∈ clients ∧ client.subject = subject :=
  Table.find_eq_some (t := (⟨clients.rows, hunique⟩ : Table RegisteredClient.subject))

end ClientTable

/-- `ClientKeyRepository.get(client_id, kid)`: both columns select. -/
def ClientKeyTable.get (keys : ClientKeyTable) (clientId kid : String) :
    Except Exc (Option ClientKey) := do
  textParameter clientId
  textParameter kid
  pure (keys.find (clientId, kid))

theorem ClientKeyTable.get_eq_ok_some {keys : ClientKeyTable} {clientId kid : String}
    {key : ClientKey} (h : keys.get clientId kid = .ok (some key)) :
    key ∈ keys ∧ key.clientId = clientId ∧ key.kid = kid := by
  simp only [get, bind_eq_ok, pure_eq_ok] at h
  obtain ⟨_, _, _, _, hfind⟩ := h
  obtain ⟨hmem, hkey⟩ := Table.find_eq_some.mp hfind
  exact ⟨hmem, congrArg Prod.fst hkey, congrArg Prod.snd hkey⟩

theorem ClientKeyTable.returns_get {keys : ClientKeyTable} {clientId kid : String} :
    Returns (keys.get clientId kid) ↔ Storable clientId ∧ Storable kid := by
  rw [ClientKeyTable.get, returns_textParameter_bind, returns_textParameter_bind]
  simp

theorem ClientKeyTable.get_eq_find {keys : ClientKeyTable} {clientId kid : String}
    {found : Option ClientKey} (h : keys.get clientId kid = .ok found) :
    keys.find (clientId, kid) = found := by
  simp only [ClientKeyTable.get, bind_eq_ok, pure_eq_ok] at h
  obtain ⟨_, _, _, _, hfind⟩ := h
  exact hfind

/-! ## Assertion replay -/

namespace ReplayTable

/-- `INSERT … ON CONFLICT DO NOTHING`, and whether a row was written. -/
def claim (replays : ReplayTable) (row : ReplayRow) : Bool × ReplayTable :=
  match replays.insert row with
  | some written => (true, written)
  | none => (false, replays)

/-- `purge_expired()` at a clock reading. -/
def purgeExpired (replays : ReplayTable) (now : ℚ) : ReplayTable :=
  replays.deleteWhere fun row => row.expiresAt < now

theorem claim_eq_true {replays written : ReplayTable} {row : ReplayRow} :
    replays.claim row = (true, written) ↔ replays.insert row = some written := by
  unfold claim
  split <;> simp_all

theorem claim_eq_false {replays written : ReplayTable} {row : ReplayRow} :
    replays.claim row = (false, written) ↔ replays.insert row = none ∧ replays = written := by
  unfold claim
  split <;> simp_all

end ReplayTable

/-- `AssertionReplayRepository.claim(client_id, jti, expires_at)`. -/
def claimAssertion (row : ReplayRow) : ServerM Bool :=
  atomically fun state => do
    textParameter row.clientId
    textParameter row.jti
    let (first, written) := state.assertionJtis.claim row
    pure (first, { state with assertionJtis := written })

/-- The first to claim a row finds it free and leaves it taken. -/
theorem claimAssertion_eq_ok_true {row : ReplayRow} {s t : ServerState} :
    (claimAssertion row).run s = .ok true t ↔
      textParameter row.clientId = .ok () ∧ textParameter row.jti = .ok () ∧
        ∃ written, s.assertionJtis.insert row = some written ∧
          t = { s with assertionJtis := written } := by
  simp only [claimAssertion, run_atomically_eq_ok, bind_eq_ok, pure_eq_ok, Prod.mk.injEq]
  constructor
  · rintro ⟨_, hclientId, _, hjti, hfirst, rfl⟩
    exact ⟨hclientId, hjti, _, ReplayTable.claim_eq_true.mp (Prod.ext hfirst rfl), rfl⟩
  · rintro ⟨hclientId, hjti, written, hinsert, rfl⟩
    rw [ReplayTable.claim_eq_true.mpr hinsert]
    exact ⟨_, hclientId, _, hjti, rfl, rfl⟩

/-- Anybody else changes nothing. -/
theorem claimAssertion_eq_ok_false {row : ReplayRow} {s t : ServerState}
    (h : (claimAssertion row).run s = .ok false t) : t = s := by
  simp only [claimAssertion, run_atomically_eq_ok, bind_eq_ok, pure_eq_ok, Prod.mk.injEq] at h
  obtain ⟨_, _, _, _, hfirst, rfl⟩ := h
  have hsame := (ReplayTable.claim_eq_false.mp (Prod.ext hfirst rfl)).2
  exact congrArg (fun written => { s with assertionJtis := written }) hsame.symm

theorem claimAssertion_eq_error {row : ReplayRow} {s t : ServerState} {e : Exc}
    (h : (claimAssertion row).run s = .error e t) : t = s :=
  (run_atomically_eq_error.mp h).2.symm

/-! ## Issued credentials -/

/-- `INSERT INTO issued_credentials`.  It may fail for reasons of the database,
and fails when the `jti` is there already. -/
def IssuedCredentialTable.record (credentials : IssuedCredentialTable) (insertFails : Bool)
    (issuance : IssuanceRecord) : Except Exc IssuedCredentialTable :=
  if insertFails then .error (.python "OperationalError")
  else
    match credentials.insert issuance with
    | some written => .ok written
    | none => .error (.python "UniqueViolation")

theorem IssuedCredentialTable.record_eq_ok {credentials written : IssuedCredentialTable}
    {insertFails : Bool} {issuance : IssuanceRecord} :
    credentials.record insertFails issuance = .ok written ↔
      insertFails = false ∧ credentials.insert issuance = some written := by
  cases insertFails with
  | true => simp [record]
  | false =>
      simp only [record, Bool.false_eq_true, if_false, true_and]
      cases credentials.insert issuance <;> simp

/-- `IssuedCredentialRepository.record(issuance)`. -/
def recordIssuance (insertFails : Bool) (issuance : IssuanceRecord) : ServerM Unit :=
  atomically fun state => do
    let written ← state.issuedCredentials.record insertFails issuance
    pure ((), { state with issuedCredentials := written })

end AgentOAuth
