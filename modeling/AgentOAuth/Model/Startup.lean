import AgentOAuth.Model.Config

/-!
# Starting the application

`lifespan` and `_bootstrap_client` of `src/main.py`, with the statements they
run: the migrations, as far as they touch the table of clients, and
`ClientRepository.upsert`.  The environment, the hash of the secret, which is
salted, and what the database raises are inputs of each start.
-/

namespace AgentOAuth

open Effect

/-! ## The clients in the database -/

/-- The migration that creates the table of clients. -/
def CLIENTS_MIGRATION : String := "001_clients_and_credentials.sql"

/-- The migration that adds the column of tenants. -/
def TENANTS_MIGRATION : String := "003_tenants.sql"

/-- The files of `storage/migrations`, sorted. -/
def MIGRATIONS : List String :=
  [CLIENTS_MIGRATION, "002_client_assertions.sql", TENANTS_MIGRATION]

/-- The applied migrations and the clients.  Before the first migration there is
no table, and before the third no column but its default to read. -/
structure Database where
  versions : List String
  clients : ClientTable
  created : CLIENTS_MIGRATION ∉ versions → clients.rows = []
  tenants : TENANTS_MIGRATION ∉ versions → ∀ client ∈ clients, client.tenant = "default"

/-- The table with all its columns is there. -/
def Database.Ready (db : Database) : Prop :=
  CLIENTS_MIGRATION ∈ db.versions ∧ TENANTS_MIGRATION ∈ db.versions

instance (db : Database) : Decidable db.Ready :=
  inferInstanceAs (Decidable (_ ∧ _))

/-- The database with other clients. -/
def Database.setClients (db : Database) (h : db.Ready) (clients : ClientTable) : Database where
  versions := db.versions
  clients := clients
  created := fun hnot => absurd h.1 hnot
  tenants := fun hnot => absurd h.2 hnot

/-- `ALTER TABLE clients ADD COLUMN tenant TEXT NOT NULL DEFAULT 'default'`. -/
def ClientTable.addTenant (clients : ClientTable) : ClientTable where
  rows := clients.rows.map fun client => { client with tenant := "default" }
  nodup := by
    rw [List.map_map]
    exact clients.nodup

/-- What the SQL of a migration does to the clients. -/
def applyMigration (clients : ClientTable) (name : String) : ClientTable :=
  if name = CLIENTS_MIGRATION then Table.empty
  else if name = TENANTS_MIGRATION then clients.addTenant
  else clients

/-- A successful run of `migrate`. -/
def Database.migrate (db : Database) : Database :=
  let missing := MIGRATIONS.filter (· ∉ db.versions)
  have hready : ∀ name ∈ MIGRATIONS, name ∈ db.versions ++ missing := by
    intro name hname
    by_cases hold : name ∈ db.versions
    · exact List.mem_append_left _ hold
    · exact List.mem_append_right _ (by simp [missing, hname, hold])
  { versions := db.versions ++ missing
    clients := missing.foldl applyMigration db.clients
    created := fun hnot => absurd (hready _ (by decide)) hnot
    tenants := fun hnot => absurd (hready _ (by decide)) hnot }

/-- The text parameters of the statement. -/
def RegisteredClient.parameters (client : RegisteredClient) : List String :=
  [client.clientId, client.subject] ++ client.secretHash.toList ++ [client.authMethod] ++
    sortedMembers client.allowedScopes ++ sortedMembers client.allowedAudiences ++ [client.tenant]

/-- `ClientRepository.upsert(client)`. -/
def Database.upsert (db : Database) (client : RegisteredClient) : Except StartupExc Database :=
  match textsError? client.parameters with
  | some className => .error (.python className)
  | none =>
      if hready : db.Ready then .ok (db.setClients hready (db.clients.upsert client))
      else .error (.python "UndefinedTable")

/-! ## The seed -/

/-- One start of the application. -/
structure Start where
  environment : Environment
  /-- `hash_secret(secret)`. -/
  hashSecret : String → Except StartupExc String
  /-- What the connection and the statements of `migrate` raise. -/
  migration : Except StartupExc Unit
  /-- What the connection, the statement and the commit of `upsert` raise. -/
  write : Except StartupExc Unit

/-- `_required_environment(name)`. -/
def requiredEnvironment (environment : Environment) (name : String) : Except StartupExc String :=
  let missing := StartupExc.runtime
    (name ++ " must be configured before starting the authorization server")
  match environment name with
  | none => .error missing
  | some value => if value = "" then .error missing else .ok value

/-- `RegisteredClient(client_id, subject, secret_hash, allowed_scopes, allowed_audiences)`,
with its `__post_init__`. -/
def registerClient (clientId subject secretHash : String)
    (allowedScopes allowedAudiences : List String) : Except StartupExc RegisteredClient :=
  if h : clientId = "" ∨ subject = "" then
    .error (.value "client_id and subject must not be empty")
  else
    .ok {
      clientId
      subject
      secretHash := some secretHash
      allowedScopes := allowedScopes.toFinset
      allowedAudiences := allowedAudiences.toFinset
      clientId_ne := (not_or.mp h).1
      subject_ne := (not_or.mp h).2 }

/-- `_bootstrap_client()`. -/
def bootstrapClient (start : Start) : Except StartupExc RegisteredClient := do
  let clientId ← requiredEnvironment start.environment "OAUTH_CLIENT_ID"
  let subject ← requiredEnvironment start.environment "OAUTH_CLIENT_SUBJECT"
  let secret ← requiredEnvironment start.environment "OAUTH_CLIENT_SECRET"
  let secretHash ← start.hashSecret secret
  registerClient clientId subject secretHash
    (split ((start.environment "OAUTH_CLIENT_SCOPES").getD ""))
    (split ((start.environment "OAUTH_CLIENT_AUDIENCES").getD ""))

/-- `migrate(connection)`, one transaction. -/
def runMigrations (start : Start) : EStateM StartupExc Database Unit :=
  atomically fun db => start.migration.map fun _ => ((), db.migrate)

/-- `clients.upsert(client)`. -/
def storeClient (start : Start) (client : RegisteredClient) : EStateM StartupExc Database Unit :=
  atomically fun db => (start.write >>= fun _ => db.upsert client).map fun after => ((), after)

/-- `lifespan`, up to its `yield`. -/
def lifespan (start : Start) : EStateM StartupExc Database Unit := do
  runMigrations start
  let client ← lift (bootstrapClient start)
  storeClient start client

/-! ## Taking a start apart -/

theorem requiredEnvironment_eq_ok {environment : Environment} {name value : String} :
    requiredEnvironment environment name = .ok value ↔ environment name = some value ∧ value ≠ "" := by
  unfold requiredEnvironment
  cases environment name with
  | none => simp
  | some other =>
      by_cases hempty : other = ""
      · simp only [hempty, if_true, reduceCtorEq, Option.some.injEq, false_iff, not_and, not_not]
        exact fun h => h.symm
      · simp only [hempty, if_false, Except.ok.injEq, Option.some.injEq]
        constructor
        · rintro rfl
          exact ⟨rfl, hempty⟩
        · exact fun h => h.1

theorem Database.upsert_eq_ok {db db' : Database} {client : RegisteredClient} :
    db.upsert client = .ok db' ↔
      (∀ text ∈ client.parameters, Storable text) ∧
        ∃ hready : db.Ready, db' = db.setClients hready (db.clients.upsert client) := by
  rw [← textsError?_eq_none]
  unfold upsert
  split
  · next className herror => simp [herror]
  · next hclean =>
      split
      · next hready =>
          constructor
          · intro h
            exact ⟨hclean, hready, (Except.ok.inj h).symm⟩
          · rintro ⟨_, _, rfl⟩
            rfl
      · next hready =>
          constructor
          · intro h
            exact absurd h (by simp)
          · rintro ⟨_, h, _⟩
            exact absurd h hready

theorem Database.ready_migrate (db : Database) : db.migrate.Ready := by
  have hready : ∀ name ∈ MIGRATIONS, name ∈ db.migrate.versions := by
    intro name hname
    by_cases hold : name ∈ db.versions
    · exact List.mem_append_left _ hold
    · exact List.mem_append_right _ (by simp [hname, hold])
  exact ⟨hready _ (by decide), hready _ (by decide)⟩

end AgentOAuth
