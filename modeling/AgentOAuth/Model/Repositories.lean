import AgentOAuth.Model.Startup
import AgentOAuth.Model.Storage

/-!
# The repositories

All methods of `src/storage/repositories.py`, on the columns of the tables
(`Rows`) and on the records that the rest of the development works with
(`ServerState`).  Every call is a statement with a commit of its own.

The order of `ORDER BY client_id` is that of the database's collation, and what
the connection, the statement or the commit may raise is an input of each call.
-/

namespace AgentOAuth

open Effect

/-! ## Calls -/

/-- A call of one of the repositories. -/
inductive RepositoryCall
  /-- `ClientRepository.get(client_id)` -/
  | getClient (clientId : String)
  /-- `ClientRepository.all()` -/
  | allClients
  /-- `ClientRepository.upsert(client)` -/
  | upsertClient (client : RegisteredClient)
  /-- `ClientKeyRepository.get(client_id, kid)` -/
  | getClientKey (clientId kid : String)
  /-- `ClientKeyRepository.add(key)` -/
  | addClientKey (key : ClientKey)
  /-- `AssertionReplayRepository.claim(client_id, jti, expires_at)` -/
  | claim (row : ReplayRow)
  /-- `AssertionReplayRepository.purge_expired()` -/
  | purgeExpired (now : ℚ)
  /-- `IssuedCredentialRepository.record(issuance)` -/
  | record (issuance : IssuanceRecord)
  /-- `IssuedCredentialRepository.get(jti)` -/
  | getIssued (jti : String)
  /-- `IssuedCredentialRepository.count()` -/
  | countIssued

/-- What the call returns. -/
abbrev RepositoryCall.Answer : RepositoryCall → Type
  | getClient _ => Option RegisteredClient
  | allClients => List RegisteredClient
  | upsertClient _ => Unit
  | getClientKey _ _ => Option ClientKey
  | addClientKey _ => Unit
  | claim _ => Bool
  | purgeExpired _ => ℕ
  | record _ => Unit
  | getIssued _ => Option IssuanceRecord
  | countIssued => ℕ

/-- The text parameters of a statement. -/
def textParameters (texts : List String) : Except Exc Unit :=
  match textsError? texts with
  | some className => .error (.python className)
  | none => .ok ()

/-- The text parameters of the call.  For `record`, as for the JSON of a key, a
refusal by the driver is among the faults. -/
def RepositoryCall.parameters : RepositoryCall → List String
  | getClient clientId => [clientId]
  | allClients => []
  | upsertClient client => client.parameters
  | getClientKey clientId kid => [clientId, kid]
  | addClientKey key => [key.clientId, key.kid]
  | claim row => [row.clientId, row.jti]
  | purgeExpired _ => []
  | record _ => []
  | getIssued jti => [jti]
  | countIssued => []

/-! ## On records -/

/-- The order of the database. -/
abbrev Collation := String → String → Bool

/-- `INSERT INTO client_keys … ON CONFLICT DO UPDATE`, whose `client_id`
references `clients`. -/
def ServerState.addClientKey (s : ServerState) (key : ClientKey) : Except Exc ServerState := do
  raiseIf (s.clients.find key.clientId = none) (.python "ForeignKeyViolation")
  pure { s with clientKeys := s.clientKeys.upsert key }

/-- `IssuedCredentialRepository.record` on the records. -/
def ServerState.record (s : ServerState) (issuance : IssuanceRecord) : Except Exc ServerState := do
  let issuedCredentials ← s.issuedCredentials.record false issuance
  pure { s with issuedCredentials }

/-- What the statement of a call does to the records. -/
def RepositoryCall.onRecords (order : Collation) (s : ServerState) :
    (call : RepositoryCall) → Except Exc (call.Answer × ServerState)
  | getClient clientId => .ok (s.clients.find clientId, s)
  | allClients =>
      .ok (s.clients.rows.mergeSort fun a b => order a.clientId b.clientId, s)
  | upsertClient client => .ok ((), { s with clients := s.clients.upsert client })
  | getClientKey clientId kid => .ok (s.clientKeys.find (clientId, kid), s)
  | addClientKey key => (s.addClientKey key).map fun t => ((), t)
  | claim row =>
      let claimed := s.assertionJtis.claim row
      .ok (claimed.1, { s with assertionJtis := claimed.2 })
  | purgeExpired now =>
      .ok ((s.assertionJtis.rows.filter fun row => row.expiresAt < now).length,
        { s with assertionJtis := s.assertionJtis.purgeExpired now })
  | record issuance => (s.record issuance).map fun t => ((), t)
  | getIssued jti => .ok (s.issuedCredentials.find jti, s)
  | countIssued => .ok (s.issuedCredentials.rows.length, s)

/-- A call, unless the driver refuses a parameter or the database fails. -/
def RepositoryCall.exec (order : Collation) (fault : Option Exc) (call : RepositoryCall) :
    ServerM call.Answer :=
  atomically fun s => do
    textParameters call.parameters
    match fault with
    | some e => .error e
    | none => call.onRecords order s

/-! ## On columns -/

/-- A row of `clients`. -/
structure ClientRow where
  clientId : String
  subject : String
  status : String
  secretHash : Option String
  authMethod : String
  allowedScopes : List String
  allowedAudiences : List String
  tenant : String
  deriving DecidableEq

/-- `client.status`. -/
def ClientStatus.text : ClientStatus → String
  | active => "active"
  | suspended => "suspended"

/-- `status in (ACTIVE, SUSPENDED)`. -/
def clientStatus (text : String) : Except Exc ClientStatus :=
  if text = "active" then .ok .active
  else if text = "suspended" then .ok .suspended
  else .error (.python "ValueError")

/-- The parameters that `upsert` writes. -/
def RegisteredClient.row (client : RegisteredClient) : ClientRow where
  clientId := client.clientId
  subject := client.subject
  status := client.status.text
  secretHash := client.secretHash
  authMethod := client.authMethod
  allowedScopes := sortedMembers client.allowedScopes
  allowedAudiences := sortedMembers client.allowedAudiences
  tenant := client.tenant

/-- `_to_client(row)`, with the checks of `RegisteredClient.__post_init__`. -/
def toClient (row : ClientRow) : Except Exc RegisteredClient :=
  if hid : row.clientId = "" then .error (.python "ValueError")
  else if hsubject : row.subject = "" then .error (.python "ValueError")
  else do
    let status ← clientStatus row.status
    pure {
      clientId := row.clientId
      subject := row.subject
      allowedScopes := row.allowedScopes.toFinset
      allowedAudiences := row.allowedAudiences.toFinset
      status
      secretHash := row.secretHash
      authMethod := row.authMethod
      tenant := row.tenant
      clientId_ne := hid
      subject_ne := hsubject }

/-- The four tables, with their constraints. -/
structure Rows where
  clients : Table ClientRow.clientId := Table.empty
  clientKeys : ClientKeyTable := Table.empty
  assertionJtis : ReplayTable := Table.empty
  issuedCredentials : IssuedCredentialTable := Table.empty
  /-- `CHECK (status IN ('active', 'suspended'))` -/
  status_known : ∀ row ∈ clients, row.status = "active" ∨ row.status = "suspended"
  /-- `REFERENCES clients (client_id)` -/
  references : ∀ key ∈ clientKeys, clients.find key.clientId ≠ none

namespace Rows

/-- `INSERT INTO clients … ON CONFLICT DO UPDATE`. -/
def upsertClient (rows : Rows) (client : RegisteredClient) : Rows where
  clients := rows.clients.upsert client.row
  clientKeys := rows.clientKeys
  assertionJtis := rows.assertionJtis
  issuedCredentials := rows.issuedCredentials
  status_known row hrow := by
    rcases Table.mem_upsert.mp hrow with rfl | ⟨hold, _⟩
    · cases hstatus : client.status <;> simp [RegisteredClient.row, ClientStatus.text, hstatus]
    · exact rows.status_known row hold
  references key hkey := by
    rw [Table.find_upsert]
    split
    · exact Option.some_ne_none _
    · exact rows.references key hkey

/-- The statement of `ClientKeyRepository.add`. -/
def addClientKey (rows : Rows) (key : ClientKey) : Except Exc Rows :=
  if h : rows.clients.find key.clientId = none then .error (.python "ForeignKeyViolation")
  else .ok {
    rows with
    clientKeys := rows.clientKeys.upsert key
    references := fun other hother => by
      rcases Table.mem_upsert.mp hother with rfl | ⟨hold, _⟩
      · exact h
      · exact rows.references other hold }

/-- The statement of `IssuedCredentialRepository.record`. -/
def record (rows : Rows) (issuance : IssuanceRecord) : Except Exc Rows := do
  let issuedCredentials ← rows.issuedCredentials.record false issuance
  pure { rows with issuedCredentials }

end Rows

/-- What the statement of a call does to the rows, and what the method makes of
the answer. -/
def RepositoryCall.onRows (order : Collation) (rows : Rows) :
    (call : RepositoryCall) → Except Exc (call.Answer × Rows)
  | getClient clientId => do
      let client ← (match rows.clients.find clientId with
        | some row => (toClient row).map some
        | none => .ok none : Except Exc (Option RegisteredClient))
      pure (client, rows)
  | allClients => do
      let clients ← (rows.clients.rows.mergeSort fun a b => order a.clientId b.clientId).mapM toClient
      pure (clients, rows)
  | upsertClient client => .ok ((), rows.upsertClient client)
  | getClientKey clientId kid => .ok (rows.clientKeys.find (clientId, kid), rows)
  | addClientKey key => (rows.addClientKey key).map fun t => ((), t)
  | claim row =>
      let claimed := rows.assertionJtis.claim row
      .ok (claimed.1, { rows with assertionJtis := claimed.2 })
  | purgeExpired now =>
      .ok ((rows.assertionJtis.rows.filter fun row => row.expiresAt < now).length,
        { rows with assertionJtis := rows.assertionJtis.purgeExpired now })
  | record issuance => (rows.record issuance).map fun t => ((), t)
  | getIssued jti => .ok (rows.issuedCredentials.find jti, rows)
  | countIssued => .ok (rows.issuedCredentials.rows.length, rows)

/-- A call on the columns: its parameters are adapted first, then the statement runs. -/
def RepositoryCall.execRows (order : Collation) (fault : Option Exc) (call : RepositoryCall) :
    EStateM Exc Rows call.Answer :=
  atomically fun rows => do
    textParameters call.parameters
    match fault with
    | some e => .error e
    | none => call.onRows order rows

end AgentOAuth
