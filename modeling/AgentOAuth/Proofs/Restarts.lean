import AgentOAuth.Lib.Transition
import AgentOAuth.Model.Startup

/-!
# What a restart does to the clients

Every start writes the client that the environment describes, over whatever row
its `client_id` has.  A start spares the rows that are there exactly when it
does not get as far as the write, the `client_id` is new, or the stored row is
the described one, column by column (`Spares`).  Over restarts of that kind and
operators' updates the stored rows are what the operators wrote, and what was
seeded where there was no row (`storedRow`).
-/

namespace AgentOAuth

open Effect Transition

variable {db db' : Database} {start : Start} {row client : RegisteredClient}

/-! ## The migrations leave the rows alone -/

theorem applyMigration_eq {name : String} (h : name ∉ db.versions) :
    applyMigration db.clients name = db.clients := by
  unfold applyMigration
  split
  · next hname =>
      subst hname
      exact Table.eq_of_rows_eq (db.created h).symm
  · split
    · next hname =>
        subst hname
        refine Table.eq_of_rows_eq ?_
        have hsame : ∀ client ∈ db.clients.rows, { client with tenant := "default" } = client := by
          intro client hclient
          have htenant : client.tenant = "default" := db.tenants h client hclient
          cases client
          simp_all
        exact (List.map_congr_left hsame).trans (List.map_id _)
    · rfl

theorem clients_migrate (db : Database) : db.migrate.clients = db.clients := by
  have hfold : ∀ names : List String, (∀ name ∈ names, name ∉ db.versions) →
      names.foldl applyMigration db.clients = db.clients := by
    intro names hnames
    induction names with
    | nil => rfl
    | cons name rest ih =>
        rw [List.foldl_cons, applyMigration_eq (hnames name List.mem_cons_self)]
        exact ih fun other hother => hnames other (List.mem_cons_of_mem _ hother)
  refine hfold _ fun name hname => ?_
  simpa using (List.mem_filter.mp hname).2

/-! ## The seed -/

/-- The row that the environment describes, column by column. -/
structure Start.Describes (start : Start) (row : RegisteredClient) : Prop where
  clientId : start.environment "OAUTH_CLIENT_ID" = some row.clientId
  subject : start.environment "OAUTH_CLIENT_SUBJECT" = some row.subject
  secretHash : ∃ secret hash, start.environment "OAUTH_CLIENT_SECRET" = some secret ∧ secret ≠ "" ∧
    start.hashSecret secret = .ok hash ∧ row.secretHash = some hash
  allowedScopes : row.allowedScopes =
    (split ((start.environment "OAUTH_CLIENT_SCOPES").getD "")).toFinset
  allowedAudiences : row.allowedAudiences =
    (split ((start.environment "OAUTH_CLIENT_AUDIENCES").getD "")).toFinset
  status : row.status = .active
  authMethod : row.authMethod = "client_secret_post"
  tenant : row.tenant = "default"

theorem registerClient_eq_ok {clientId subject secretHash : String}
    {allowedScopes allowedAudiences : List String} :
    registerClient clientId subject secretHash allowedScopes allowedAudiences = .ok row ↔
      row.clientId = clientId ∧ row.subject = subject ∧ row.secretHash = some secretHash ∧
        row.allowedScopes = allowedScopes.toFinset ∧
          row.allowedAudiences = allowedAudiences.toFinset ∧ row.status = .active ∧
            row.authMethod = "client_secret_post" ∧ row.tenant = "default" := by
  unfold registerClient
  constructor
  · intro h
    split at h
    · simp at h
    · obtain rfl := Except.ok.inj h
      exact ⟨rfl, rfl, rfl, rfl, rfl, rfl, rfl, rfl⟩
  · obtain ⟨_, _, _, _, _, _, _, _, hclientId, hsubject⟩ := row
    intro h
    obtain ⟨rfl, rfl, rfl, rfl, rfl, rfl, rfl, rfl⟩ := h
    rw [dif_neg (not_or.mpr ⟨hclientId, hsubject⟩)]

/-- The seed is the described row. -/
theorem bootstrapClient_eq_ok : bootstrapClient start = .ok row ↔ start.Describes row := by
  simp only [bootstrapClient, bind_eq_ok, requiredEnvironment_eq_ok, registerClient_eq_ok]
  constructor
  · rintro ⟨_, ⟨hclientId, _⟩, _, ⟨hsubject, _⟩, secret, ⟨hsecret, hne⟩, hash, hhash, rfl, rfl,
      hrow, hscopes, haudiences, hstatus, hmethod, htenant⟩
    exact ⟨hclientId, hsubject, ⟨secret, hash, hsecret, hne, hhash, hrow⟩, hscopes, haudiences,
      hstatus, hmethod, htenant⟩
  · rintro ⟨hclientId, hsubject, ⟨secret, hash, hsecret, hne, hhash, hrow⟩, hscopes, haudiences,
      hstatus, hmethod, htenant⟩
    exact ⟨_, ⟨hclientId, row.clientId_ne⟩, _, ⟨hsubject, row.subject_ne⟩, secret, ⟨hsecret, hne⟩,
      hash, hhash, rfl, rfl, hrow, hscopes, haudiences, hstatus, hmethod, htenant⟩

theorem Start.Describes.unique (h : start.Describes row) (h' : start.Describes client) :
    row = client :=
  Except.ok.inj ((bootstrapClient_eq_ok.mpr h).symm.trans (bootstrapClient_eq_ok.mpr h'))

/-- The start gets as far as writing the row. -/
structure Start.Seeds (start : Start) (row : RegisteredClient) : Prop where
  migration : start.migration = .ok ()
  write : start.write = .ok ()
  describes : start.Describes row
  text : ∀ text ∈ row.parameters, Storable text

theorem run_runMigrations_eq_ok :
    (runMigrations start).run db = .ok () db' ↔ start.migration = .ok () ∧ db' = db.migrate := by
  simp only [runMigrations, run_atomically_eq_ok, map_eq_ok, Prod.mk.injEq, true_and]
  constructor
  · intro h
    obtain ⟨_, hmigration, rfl⟩ := h
    exact ⟨hmigration, rfl⟩
  · intro h
    obtain ⟨hmigration, rfl⟩ := h
    exact ⟨(), hmigration, rfl⟩

theorem run_storeClient_eq_ok :
    (storeClient start client).run db = .ok () db' ↔
      start.write = .ok () ∧ db.upsert client = .ok db' := by
  simp only [storeClient, run_atomically_eq_ok, map_eq_ok, bind_eq_ok, Prod.mk.injEq, true_and]
  constructor
  · intro h
    obtain ⟨_, ⟨_, hwrite, hupsert⟩, rfl⟩ := h
    exact ⟨hwrite, hupsert⟩
  · intro h
    obtain ⟨hwrite, hupsert⟩ := h
    exact ⟨db', ⟨(), hwrite, hupsert⟩, rfl⟩

/-- A start that gets there writes the described row over the old one. -/
theorem clients_lifespan_of_seeds (h : start.Seeds client) :
    (finalState ((lifespan start).run db)).clients = db.clients.upsert client := by
  have hready := db.ready_migrate
  have hupsert : db.migrate.upsert client =
      .ok (db.migrate.setClients hready (db.migrate.clients.upsert client)) :=
    Database.upsert_eq_ok.mpr ⟨h.text, hready, rfl⟩
  rw [lifespan, run_bind_of_ok (run_runMigrations_eq_ok.mpr ⟨h.migration, rfl⟩),
    run_lift_bind_of_ok (bootstrapClient_eq_ok.mpr h.describes),
    run_storeClient_eq_ok.mpr ⟨h.write, hupsert⟩]
  change db.migrate.clients.upsert client = db.clients.upsert client
  rw [clients_migrate]

/-- Any other start leaves the rows alone. -/
theorem clients_lifespan_of_not_seeds (h : ∀ client, ¬ start.Seeds client) :
    (finalState ((lifespan start).run db)).clients = db.clients := by
  cases hmigration : (runMigrations start).run db with
  | error e after =>
      have hsame : after = db := (run_atomically_eq_error.mp hmigration).2.symm
      rw [lifespan, run_bind_eq_error.mpr (.inl hmigration), finalState_error, hsame]
  | ok u after =>
      obtain ⟨hstart, rfl⟩ := run_runMigrations_eq_ok.mp hmigration
      rw [lifespan, run_bind_of_ok hmigration]
      cases hclient : bootstrapClient start with
      | error e => exact clients_migrate db
      | ok client =>
          rw [run_lift_bind_of_ok rfl]
          cases hstore : (storeClient start client).run db.migrate with
          | error e after =>
              have hsame : after = db.migrate := (run_atomically_eq_error.mp hstore).2.symm
              rw [finalState_error, hsame, clients_migrate]
          | ok u after =>
              obtain ⟨hwrite, hupsert⟩ := run_storeClient_eq_ok.mp hstore
              obtain ⟨htext, _⟩ := Database.upsert_eq_ok.mp hupsert
              exact absurd ⟨hstart, hwrite, bootstrapClient_eq_ok.mp hclient, htext⟩ (h client)

/-! ## One start -/

/-- The start leaves every row as it is, and adds at most a row for the
configured `client_id`, where there was none. -/
def Undisturbed (db : Database) (start : Start) : Prop :=
  (∀ row ∈ db.clients, row ∈ (finalState ((lifespan start).run db)).clients) ∧
    ∀ row ∈ (finalState ((lifespan start).run db)).clients, row ∈ db.clients ∨
      db.clients.find row.clientId = none ∧ start.environment "OAUTH_CLIENT_ID" = some row.clientId

/-- The start gets as far as its write. -/
def Start.Completes (start : Start) : Prop :=
  start.migration = .ok () ∧ start.write = .ok () ∧
    ∃ row, start.Describes row ∧ ∀ text ∈ row.parameters, Storable text

/-- The start does not get as far as its write, or there is no row under the
configured `client_id`, or that row is the one the environment describes. -/
def Spares (db : Database) (start : Start) : Prop :=
  start.Completes → ∀ row ∈ db.clients,
    start.environment "OAUTH_CLIENT_ID" = some row.clientId → start.Describes row

theorem completes_iff : start.Completes ↔ ∃ client, start.Seeds client := by
  constructor
  · intro h
    obtain ⟨hmigration, hwrite, row, hrow, htext⟩ := h
    exact ⟨row, hmigration, hwrite, hrow, htext⟩
  · intro h
    obtain ⟨row, hseeds⟩ := h
    exact ⟨hseeds.migration, hseeds.write, row, hseeds.describes, hseeds.text⟩

/-- A start that writes leaves the rows alone if it writes what is there. -/
theorem undisturbed_iff_of_seeds (h : start.Seeds client) :
    Undisturbed db start ↔
      ∀ row ∈ db.clients, row.clientId = client.clientId → row = client := by
  unfold Undisturbed
  rw [clients_lifespan_of_seeds h]
  constructor
  · intro hundisturbed row hrow hsame
    -- the seeded row and the old one are both there, under one key
    rcases Table.mem_upsert.mp (hundisturbed.1 row hrow) with heq | ⟨_, hne⟩
    · exact heq
    · exact absurd hsame hne
  · intro hold
    constructor
    · intro row hrow
      apply Table.mem_upsert.mpr
      by_cases hsame : row.clientId = client.clientId
      · exact .inl (hold row hrow hsame)
      · exact .inr ⟨hrow, hsame⟩
    · intro row hmem
      rcases Table.mem_upsert.mp hmem with rfl | ⟨hrow, _⟩
      · cases hfind : db.clients.find row.clientId with
        | none => exact .inr ⟨rfl, h.describes.clientId⟩
        | some old =>
            obtain ⟨hrow, hsame⟩ := Table.find_eq_some.mp hfind
            exact .inl (hold old hrow hsame ▸ hrow)
      · exact .inl hrow

theorem undisturbed_of_not_seeds (h : ∀ client, ¬ start.Seeds client) : Undisturbed db start := by
  unfold Undisturbed
  rw [clients_lifespan_of_not_seeds h]
  constructor
  · intro row hrow
    exact hrow
  · intro row hrow
    exact .inl hrow

/-- The configured `client_id` is the seeded row's, and the described row is the
seeded one. -/
theorem spares_iff_of_seeds (h : start.Seeds client) :
    Spares db start ↔ ∀ row ∈ db.clients, row.clientId = client.clientId → row = client := by
  have hid := h.describes.clientId
  constructor
  · intro hspares row hrow hsame
    have hconfigured : start.environment "OAUTH_CLIENT_ID" = some row.clientId := by
      rw [hsame, hid]
    exact (hspares (completes_iff.mpr ⟨client, h⟩) row hrow hconfigured).unique h.describes
  · intro hold _ row hrow hconfigured
    have hsame : row.clientId = client.clientId := Option.some.inj (hconfigured.symm.trans hid)
    rw [hold row hrow hsame]
    exact h.describes

/-- **A start leaves the rows alone exactly when it spares them.** -/
theorem undisturbed_iff : Undisturbed db start ↔ Spares db start := by
  by_cases hcompletes : start.Completes
  · obtain ⟨client, hseeds⟩ := completes_iff.mp hcompletes
    rw [undisturbed_iff_of_seeds hseeds, spares_iff_of_seeds hseeds]
  · have hundisturbed : Undisturbed db start :=
      undisturbed_of_not_seeds fun client hseeds => hcompletes (completes_iff.mpr ⟨client, hseeds⟩)
    constructor
    · intro _ hc
      exact absurd hc hcompletes
    · intro _
      exact hundisturbed

/-! ## Restarts and updates -/

/-- What happens to the table over time. -/
inductive Operation
  | restart (start : Start)
  /-- An operator writes a row. -/
  | write (client : RegisteredClient)
  /-- An operator deletes a row. -/
  | remove (clientId : String)

/-- Restarts and operators' updates, in any order. -/
def operating : System Database Operation where
  init _ := True
  step db
    | .restart start => some (finalState ((lifespan start).run db))
    | .write client =>
        if hready : db.Ready then some (db.setClients hready (db.clients.upsert client)) else none
    | .remove clientId =>
        if hready : db.Ready then
          some (db.setClients hready (db.clients.deleteWhere fun row => row.clientId = clientId))
        else none

/-- The row that a start writes, if it gets as far. -/
def Start.seed? (start : Start) : Option RegisteredClient :=
  if start.migration.isOk && start.write.isOk then
    (bootstrapClient start).toOption.filter fun row =>
      row.parameters.all fun text => Storable text
  else none

/-- How a client's row should develop: operators decide, and a restart seeds the
row only where there is none. -/
def storedRow (clientId : String) (row : Option RegisteredClient) :
    Operation → Option RegisteredClient
  | .restart start => row.or (start.seed?.filter fun seed => seed.clientId = clientId)
  | .write client => if client.clientId = clientId then some client else row
  | .remove other => if other = clientId then none else row

theorem seed?_eq_some : start.seed? = some row ↔ start.Seeds row := by
  have htext : row.parameters.all (fun text => Storable text) = true ↔
      ∀ text ∈ row.parameters, Storable text := by
    simp
  simp only [Start.seed?, Option.ite_none_right_eq_some, Bool.and_eq_true, isOk_iff,
    Option.filter_eq_some_iff, toOption_eq_some, bootstrapClient_eq_ok, htext]
  constructor
  · intro h
    obtain ⟨⟨⟨_, hmigration⟩, _, hwrite⟩, hrow, hclean⟩ := h
    exact ⟨hmigration, hwrite, hrow, hclean⟩
  · intro h
    exact ⟨⟨⟨(), h.migration⟩, (), h.write⟩, h.describes, h.text⟩

/-- Every restart of the run spares the rows it finds. -/
def Sparing (db : Database) (operation : Operation) : Prop :=
  ∀ start, operation = .restart start → Spares db start

theorem find_restart (h : Spares db start) (clientId : String) :
    (finalState ((lifespan start).run db)).clients.find clientId =
      storedRow clientId (db.clients.find clientId) (.restart start) := by
  cases hseed : start.seed? with
  | none =>
      have hnone : ∀ client, ¬ start.Seeds client := by
        intro client hseeds
        rw [seed?_eq_some.mpr hseeds] at hseed
        exact Option.some_ne_none _ hseed
      rw [clients_lifespan_of_not_seeds hnone, storedRow, hseed, Option.filter_none, Option.or_none]
  | some client =>
      have hseeds := seed?_eq_some.mp hseed
      rw [clients_lifespan_of_seeds hseeds, Table.find_upsert, storedRow, hseed, Option.filter_some]
      by_cases hid : clientId = client.clientId
      · subst hid
        cases hfind : db.clients.find client.clientId with
        | none => simp
        | some row =>
            obtain ⟨hrow, hsame⟩ := Table.find_eq_some.mp hfind
            rw [(spares_iff_of_seeds hseeds).mp h row hrow hsame]
            simp
      · rw [if_neg hid]
        simp [Ne.symm hid]

theorem find_step {operation : Operation} (h : Sparing db operation)
    (hstep : operating.step db operation = some db') (clientId : String) :
    db'.clients.find clientId = storedRow clientId (db.clients.find clientId) operation := by
  cases operation with
  | restart start =>
      obtain rfl := Option.some.inj hstep
      exact find_restart (h start rfl) clientId
  | write client =>
      simp only [operating, Option.dite_none_right_eq_some, Option.some.injEq] at hstep
      obtain ⟨hready, rfl⟩ := hstep
      refine (Table.find_upsert db.clients client clientId).trans ?_
      simp only [storedRow, eq_comm]
  | remove other =>
      simp only [operating, Option.dite_none_right_eq_some, Option.some.injEq] at hstep
      obtain ⟨hready, rfl⟩ := hstep
      exact Table.find_deleteWhere_key db.clients clientId other

namespace Example.Reseed

def environment : Environment
  | "OAUTH_CLIENT_ID" => some "reporting-agent"
  | "OAUTH_CLIENT_SUBJECT" => some "agent:reporting"
  | "OAUTH_CLIENT_SCOPES" => some "reports:read"
  | "OAUTH_CLIENT_AUDIENCES" => some "agent-resource"
  | "OAUTH_CLIENT_SECRET" => some "a long secret"
  | _ => none

/-- A start at which nothing fails; `salt` is new at each. -/
def salted (salt : String) : Start := ⟨environment, fun s => .ok (salt ++ s), .ok (), .ok ()⟩

/-- A start without the secret. -/
def withoutSecret : Start :=
  { salted "salt 2: " with
    environment := fun name => if name = "OAUTH_CLIENT_SECRET" then none else environment name }

/-- The row of the first start, as an operator suspended and moved it. -/
def suspended : RegisteredClient where
  clientId := "reporting-agent"
  subject := "agent:reporting"
  allowedScopes := {"finance:read"}
  allowedAudiences := {"agent-resource"}
  status := .suspended
  secretHash := some "salt 1: a long secret"
  tenant := "acme"
  clientId_ne := by decide
  subject_ne := by decide

/-- A database before its first migration. -/
def fresh : Database := ⟨[], Table.empty, fun _ => rfl, fun _ _ h => absurd h List.not_mem_nil⟩

def stored : Database :=
  ⟨MIGRATIONS, ⟨[suspended], List.nodup_singleton _⟩, fun h => absurd (by decide) h,
    fun h => absurd (by decide) h⟩

def restarted : Database := finalState ((lifespan (salted "salt 2: ")).run stored)

def events : List Operation :=
  [.restart (salted "salt 1: "), .write suspended, .restart withoutSecret]

theorem complies : operating.Complies Sparing fresh events := by
  refine ⟨fun _ _ _ _ hrow _ => absurd hrow List.not_mem_nil, fun _ _ => ?_⟩
  refine ⟨fun _ hrestart => Operation.noConfusion hrestart, fun _ _ => ?_⟩
  refine ⟨fun _ hrestart => ?_, fun _ _ => trivial⟩
  obtain rfl := Operation.restart.inj hrestart
  -- without the secret the start raises before its write
  rintro ⟨_, _, row, hdescribes, _⟩
  obtain ⟨secret, hash, hsecret, _⟩ := hdescribes.secretHash
  exact absurd hsecret (by simp [withoutSecret])

end Example.Reseed

/-- **A start leaves the stored rows alone exactly when it spares them, and over
restarts that do every row is what operators made of it**, seeded only where
there was none. -/
theorem restarts_keep_rows (db : Database) :
    (∀ start, Undisturbed db start ↔ Spares db start) ∧
      ∀ events db', operating.replay db events = some db' →
        operating.Complies Sparing db events →
          ∀ clientId, db'.clients.find clientId =
            events.foldl (storedRow clientId) (db.clients.find clientId) := by
  constructor
  · intro start
    exact undisturbed_iff
  · intro events db' hreplay hsparing clientId
    exact System.replay_view (fun s e t hspares hstep => find_step hspares hstep clientId)
      hreplay hsparing

/-- A suspended client stays suspended over a start without the secret. -/
theorem restarts_keep_rows_suspended :
    ∃ db, operating.replay Example.Reseed.fresh Example.Reseed.events = some db ∧
      db.clients.find "reporting-agent" = some Example.Reseed.suspended := by
  have hreplay : (operating.replay Example.Reseed.fresh Example.Reseed.events).isSome = true := by
    decide +kernel
  obtain ⟨db, hdb⟩ := Option.isSome_iff_exists.mp hreplay
  refine ⟨db, hdb, ?_⟩
  rw [(restarts_keep_rows _).2 _ _ hdb Example.Reseed.complies]
  decide +kernel

/-- A start with it makes the suspended client active again, and resets its
tenant and its hash. -/
theorem restart_reactivates :
    ¬ Undisturbed Example.Reseed.stored (Example.Reseed.salted "salt 2: ") ∧
      Example.Reseed.suspended ∈ Example.Reseed.stored.clients ∧
        (Example.Reseed.restarted.clients.find "reporting-agent").map (fun row =>
          (row.status, row.tenant, row.secretHash)) =
            some (.active, "default", some "salt 2: a long secret") := by
  have hmem : Example.Reseed.suspended ∈ Example.Reseed.stored.clients :=
    List.mem_singleton_self _
  have hafter : (Example.Reseed.restarted.clients.find "reporting-agent").map (fun row =>
      (row.status, row.tenant, row.secretHash)) =
        some (.active, "default", some "salt 2: a long secret") := by
    decide +kernel
  refine ⟨?_, hmem, hafter⟩
  rintro ⟨hkept, _⟩
  have hfind : Example.Reseed.restarted.clients.find "reporting-agent" =
      some Example.Reseed.suspended :=
    Table.find_eq_some.mpr ⟨hkept _ hmem, rfl⟩
  rw [hfind] at hafter
  exact absurd hafter (by decide +kernel)

end AgentOAuth
