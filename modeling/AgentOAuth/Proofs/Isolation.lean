import AgentOAuth.Lib.Confinement
import AgentOAuth.Proofs.ForeignAssertions
import AgentOAuth.Proofs.Repositories
import AgentOAuth.Proofs.Serializable

/-!
# Clients do not disturb each other

A request touches the rows of two clients at most: the one it authenticates, and
the one its actor token was issued to.  So take some clients, and any
interleaving of requests and registrations, each of which concerns only these
clients or none of them.  The requests that concern them go exactly as they
would if the others had never been made (`clients_isolated`).

`names` are the clients of a request, `Touches` says which rows a statement
reads and writes, and `touches_requestScript` that a request keeps to its names.
The rows of some clients are then a `Part` of the store.
-/

namespace AgentOAuth

open Effect Noninterference Workloads

variable {server : Server} {order : Collation} {V J : String → Bool} {C D : String → Prop}
  {s t : ServerState} {x : Statement} {moment : Moment} {request : Request}

/-! ## What a request touches -/

namespace Server

/-- The client whose credential the request presents. -/
def callerId (server : Server) (request : Request) : Option String :=
  (server.presented request).toOption.map fun found => found.1.clientId

/-- The client that the actor token was issued to. -/
def actorId (server : Server) (moment : Moment) (request : Request) : Option String := do
  let form ← (readTokenForm server.interpreter request).toOption
  let actorToken ← (form.require "actor_token").toOption
  let actorClaims ← (server.exchange.verify moment.actorVerified actorToken).toOption
  match Dict.get actorClaims "client_id" with
  | .str clientId => some clientId
  | _ => none

/-- The clients that a request concerns. -/
def names (server : Server) (job : Job) : List String :=
  (server.callerId job.request).toList ++ (server.actorId job.moment job.request).toList

end Server

/-- The statement reads and writes rows of the clients in `C` only, and of the
`jti`s in `D`. -/
def Touches (C D : String → Prop) : Statement → Prop
  | .getClient clientId => C clientId
  | .getClientKey clientId _ => C clientId
  | .claim row => C row.clientId
  | .sign _ => True
  | .record _ issuance => D issuance.jti

/-- A lookup finds the client it is for. -/
def Expected : (x : Statement) → x.Answer → Prop
  | .getClient clientId, found => ∀ client, found = some client → client.clientId = clientId
  | _, _ => True

/-- The calls of a script touch nothing else. -/
abbrev Keeping (C D : String → Prop) {α : Type} (k : RequestScript α) : Prop :=
  k.EveryWhen Expected (Touches C D)

theorem keeping_decodeScript (config : PrivateKeyJwt) (now : ℚ) (assertion : String)
    {client : Option RegisteredClient} (hclient : ∀ c, client = some c → C c.clientId) :
    Keeping C D (config.decodeScript now assertion client) := by
  refine Script.everyWhen_finish_bind fun header _ => ?_
  cases header.bind PrivateKeyJwt.acceptableKid with
  | none => trivial
  | some kid =>
      cases client with
      | none => trivial
      | some client =>
          refine Script.everyWhen_op_bind (hclient client rfl) fun key _ => ?_
          cases key <;> trivial

theorem keeping_verifyScript (config : PrivateKeyJwt) (moment : Moment)
    (presented : PresentedCredential) {client : Option RegisteredClient}
    (hclient : ∀ c, client = some c → C c.clientId) :
    Keeping C D (config.verifyScript moment presented client) := by
  refine Script.EveryWhen.bind (keeping_decodeScript config _ _ hclient) fun claims => ?_
  cases claims with
  | none => trivial
  | some claims =>
      cases client with
      | none => trivial
      | some client =>
          refine Script.everyWhen_finish_bind fun acceptable hacceptable => ?_
          cases acceptable with
          | false => trivial
          | true =>
              refine Script.everyWhen_finish_bind fun row hrow =>
                Script.everyWhen_finish_bind fun _ _ => ⟨?_, fun _ _ => trivial⟩
              -- the row carries the `sub` of the assertion, which is the client's id
              have hsub := (PrivateKeyJwt.claimsAreAcceptable_eq_ok_true.mp hacceptable).2.1
              simp only [PrivateKeyJwt.replayRow, bind_eq_ok, pure_eq_ok, Value.text_eq_ok, hsub,
                Value.str.injEq] at hrow
              obtain ⟨_, rfl, _, _, rfl⟩ := hrow
              exact hclient client rfl

namespace Server

theorem keeping_authenticateScript (method : ClientAuthMethod) {presented : PresentedCredential}
    (hC : C presented.clientId) :
    Keeping C D (server.authenticateScript moment presented method) := by
  refine Script.everyWhen_op_bind hC fun client hclient => ?_
  refine Script.EveryWhen.bind ?_ fun proved => Script.everyWhen_finish_bind fun _ _ => ?_
  · unfold verifyScript
    split
    · exact keeping_verifyScript _ _ _ fun c hc => by rw [hclient c hc]; exact hC
    · trivial
  · cases client <;> trivial

theorem keeping_resolveScript (grant : Grant) {form : TokenForm} (client : Option RegisteredClient)
    (hform : readTokenForm server.interpreter request = .ok form)
    (hC : ∀ clientId, server.actorId moment request = some clientId → C clientId) :
    Keeping C D (server.resolveScript grant moment form client) := by
  unfold resolveScript
  split
  · refine Script.everyWhen_finish_bind fun _ _ => Script.everyWhen_finish_bind fun _ _ =>
      Script.everyWhen_finish_bind fun _ _ => Script.everyWhen_finish_bind fun actorToken hactor =>
        Script.everyWhen_finish_bind fun _ _ => Script.everyWhen_finish_bind fun _ _ =>
          Script.everyWhen_finish_bind fun actorClaims hclaims => ?_
    -- the one lookup of an exchange is that of the actor's registration
    have hactorId : server.actorId moment request =
        match Dict.get actorClaims "client_id" with
        | .str clientId => some clientId
        | _ => none := by
      simp only [actorId, hform, hactor, hclaims, Except.toOption, Option.bind_eq_bind,
        Option.bind_some]
    refine Script.EveryWhen.bind ?_ fun actorClient => ?_
    · refine Script.EveryWhen.bind ?_ fun stored => ?_
      · cases hget : Dict.get actorClaims "client_id" with
        | str clientId =>
            rw [hget] at hactorId
            exact ⟨hC clientId hactorId, fun _ _ => trivial⟩
        | _ => trivial
      · cases stored <;> trivial
    · refine Script.everyWhen_finish_bind fun _ _ => Script.everyWhen_finish_bind fun _ _ =>
        Script.everyWhen_finish_bind fun _ _ => Script.everyWhen_finish_bind fun _ _ =>
          Script.everyWhen_finish_bind fun _ _ => Script.everyWhen_finish_bind fun _ _ =>
            Script.everyWhen_finish_bind fun _ _ => Script.everyWhen_finish_bind fun _ _ =>
              Script.everyWhen_finish_bind fun _ _ => Script.everyWhen_finish_bind fun _ _ => ?_
      trivial
  · trivial

theorem keeping_issueScript (pipeline : IssuancePipeline) (result : GrantResult)
    (hD : D moment.jti) : Keeping C D (pipeline.issueScript moment result) := by
  refine Script.everyWhen_finish_bind fun _ _ => Script.everyWhen_finish_bind fun _ _ =>
    Script.everyWhen_finish_bind fun minted hminted => Script.everyWhen_op_bind trivial fun _ _ =>
      Script.everyWhen_finish_bind fun row hrow => Script.everyWhen_op_bind ?_ fun _ _ => trivial
  obtain ⟨row', hrow', hjti⟩ := IssuancePipeline.issuanceRecord_of_mint hminted
  obtain rfl : row' = row := by simpa [hrow'] using hrow
  change D row'.jti
  rw [hjti]
  exact hD

/-- **A request keeps to the clients it names.** -/
theorem touches_requestScript {job : Job} (hC : ∀ clientId ∈ server.names job, C clientId)
    (hD : D job.moment.jti) : Keeping C D (server.requestScript job.moment job.request) := by
  refine Script.everyWhen_finish_bind fun form hform =>
    Script.everyWhen_finish_bind fun grantType hgrantType =>
      Script.everyWhen_finish_bind fun grant hgrant => Script.EveryWhen.bind ?_ fun client => ?_
  · unfold clientScript
    split
    · refine Script.everyWhen_finish_bind fun found hextract => ?_
      have hcaller : server.callerId job.request = some found.1.clientId := by
        simp only [callerId, presented, hform, hgrantType, hgrant, hextract, bind, Except.bind]
        rfl
      have hclient : C found.1.clientId := hC _ (by simp [names, hcaller])
      exact (keeping_authenticateScript found.2 hclient).bind fun _ => trivial
    · trivial
  · refine (keeping_resolveScript grant client hform fun clientId hclientId =>
      hC clientId (by simp [names, hclientId])).bind fun result =>
        (keeping_issueScript server.pipeline result hD).bind fun token => trivial

end Server

/-! ## The rows of some clients -/

/-- The states have the same rows of the clients in `V`, and of the `jti`s in
`J`. -/
structure SameFor (V J : String → Bool) (s t : ServerState) : Prop where
  clients : ∀ clientId, V clientId = true → s.clients.find clientId = t.clients.find clientId
  clientKeys : ∀ clientId, V clientId = true → ∀ kid,
    s.clientKeys.find (clientId, kid) = t.clientKeys.find (clientId, kid)
  assertionJtis : ∀ clientId, V clientId = true → ∀ jti,
    s.assertionJtis.find (clientId, jti) = t.assertionJtis.find (clientId, jti)
  issuedCredentials : ∀ jti, J jti = true →
    s.issuedCredentials.find jti = t.issuedCredentials.find jti

namespace SameFor

theorem refl (s : ServerState) : SameFor V J s s :=
  ⟨fun _ _ => rfl, fun _ _ _ => rfl, fun _ _ _ => rfl, fun _ _ => rfl⟩

theorem symm (h : SameFor V J s t) : SameFor V J t s :=
  ⟨fun id hid => (h.clients id hid).symm, fun id hid kid => (h.clientKeys id hid kid).symm,
    fun id hid jti => (h.assertionJtis id hid jti).symm,
    fun jti hjti => (h.issuedCredentials jti hjti).symm⟩

theorem trans {u : ServerState} (h : SameFor V J s t) (h' : SameFor V J t u) : SameFor V J s u :=
  ⟨fun id hid => (h.clients id hid).trans (h'.clients id hid),
    fun id hid kid => (h.clientKeys id hid kid).trans (h'.clientKeys id hid kid),
    fun id hid jti => (h.assertionJtis id hid jti).trans (h'.assertionJtis id hid jti),
    fun jti hjti => (h.issuedCredentials jti hjti).trans (h'.issuedCredentials jti hjti)⟩

end SameFor

/-- What a claim leaves under a key: the row that was there, or its own. -/
theorem find_claim {row found : ReplayRow} {key : String × String} :
    (Script.after Statement.exec (.claim row) s).assertionJtis.find key = some found ↔
      s.assertionJtis.find key = some found ∨
        found = row ∧ row.primaryKey = key ∧
          Script.answer Statement.exec (.claim row) s = .ok true := by
  rw [Table.find_eq_some, Table.find_eq_some]
  constructor
  · intro h
    obtain ⟨hmem, hkey⟩ := h
    rcases mem_claimAssertion.mp hmem with hold | ⟨rfl, hfirst⟩
    · exact .inl ⟨hold, hkey⟩
    · exact .inr ⟨rfl, hkey, hfirst⟩
  · rintro (⟨hold, hkey⟩ | ⟨rfl, hkey, hfirst⟩)
    · exact ⟨mem_claimAssertion.mpr (.inl hold), hkey⟩
    · exact ⟨mem_claimAssertion.mpr (.inr ⟨rfl, hfirst⟩), hkey⟩

/-- And what an insert leaves. -/
theorem find_record {insertFails : Bool} {issuance found : IssuanceRecord} {jti : String} :
    (Script.after Statement.exec (.record insertFails issuance) s).issuedCredentials.find jti =
        some found ↔
      s.issuedCredentials.find jti = some found ∨
        found = issuance ∧ issuance.jti = jti ∧ insertFails = false ∧
          s.issuedCredentials.find jti = none := by
  rw [Statement.record_after, Table.find_eq_some, Table.mem_iff, Statement.recorded_rows,
    Table.find_eq_some]
  constructor
  · intro h
    obtain ⟨hmem, rfl⟩ := h
    split at hmem
    · next hfree =>
        rcases List.mem_cons.mp hmem with rfl | hold
        · exact .inr ⟨rfl, rfl, hfree⟩
        · exact .inl ⟨hold, rfl⟩
    · exact .inl ⟨hmem, rfl⟩
  · rintro (⟨hold, rfl⟩ | ⟨rfl, rfl, hfree⟩)
    · refine ⟨?_, rfl⟩
      split
      · exact List.mem_cons_of_mem _ hold
      · exact hold
    · rw [if_pos hfree]
      exact ⟨List.mem_cons_self, rfl⟩

/-- The statement reads and writes within the rows that are the same. -/
abbrev Inside (V J : String → Bool) : Statement → Prop :=
  Touches (fun clientId => V clientId = true) fun jti => J jti = true

/-- The statement reads and writes other rows. -/
abbrev Outside (V J : String → Bool) : Statement → Prop :=
  Touches (fun clientId => V clientId = false) fun jti => J jti = false

theorem SameFor.answer (h : SameFor V J s t) (hx : Inside V J x) :
    Script.answer Statement.exec x s = Script.answer Statement.exec x t := by
  cases x with
  | getClient clientId =>
      change outcome ((lift (s.clients.get clientId) : ServerM _).run s) =
        outcome ((lift (t.clients.get clientId) : ServerM _).run t)
      rw [outcome_lift, outcome_lift, ClientTable.get, ClientTable.get, h.clients clientId hx]
  | getClientKey clientId kid =>
      change outcome ((lift (s.clientKeys.get clientId kid) : ServerM _).run s) =
        outcome ((lift (t.clientKeys.get clientId kid) : ServerM _).run t)
      rw [outcome_lift, outcome_lift, ClientKeyTable.get, ClientKeyTable.get,
        h.clientKeys clientId hx kid]
  | claim row =>
      change outcome ((claimAssertion row).run s) = outcome ((claimAssertion row).run t)
      rw [outcome_claimAssertion, outcome_claimAssertion, ReplayRow.primaryKey,
        h.assertionJtis row.clientId hx row.jti]
  | sign minted => rfl
  | record insertFails issuance =>
      rw [Statement.record_answer, Statement.record_answer, Statement.record_map_unit,
        Statement.record_map_unit, h.issuedCredentials issuance.jti hx]

theorem SameFor.after (h : SameFor V J s t) (hx : Inside V J x) :
    SameFor V J (Script.after Statement.exec x s) (Script.after Statement.exec x t) := by
  have hanswer := h.answer hx
  rcases x.shape_cases with hread | ⟨row, rfl⟩ | ⟨minted, rfl⟩ | ⟨insertFails, issuance, rfl⟩
  · rw [Statement.after_of_isRead hread, Statement.after_of_isRead hread]
    exact h
  · refine ⟨?_, ?_, fun clientId hclientId jti => ?_, ?_⟩
    · rw [Statement.claim_after, Statement.claim_after row t]
      exact h.clients
    · rw [Statement.claim_after, Statement.claim_after row t]
      exact h.clientKeys
    · refine Option.ext fun found => ?_
      rw [find_claim, find_claim, h.assertionJtis clientId hclientId jti, hanswer]
    · rw [Statement.claim_after, Statement.claim_after row t]
      exact h.issuedCredentials
  · exact ⟨h.clients, h.clientKeys, h.assertionJtis, h.issuedCredentials⟩
  · refine ⟨?_, ?_, ?_, fun jti hjti => ?_⟩
    · rw [Statement.record_after, Statement.record_after]
      exact h.clients
    · rw [Statement.record_after, Statement.record_after]
      exact h.clientKeys
    · rw [Statement.record_after, Statement.record_after]
      exact h.assertionJtis
    · refine Option.ext fun found => ?_
      rw [find_record, find_record, h.issuedCredentials jti hjti]

theorem sameFor_after (hx : Outside V J x) (s : ServerState) :
    SameFor V J s (Script.after Statement.exec x s) := by
  rcases x.shape_cases with hread | ⟨row, rfl⟩ | ⟨minted, rfl⟩ | ⟨insertFails, issuance, rfl⟩
  · rw [Statement.after_of_isRead hread]
    exact SameFor.refl s
  · refine ⟨?_, ?_, fun clientId hclientId jti => ?_, ?_⟩
    · rw [Statement.claim_after]
      exact fun _ _ => rfl
    · rw [Statement.claim_after]
      exact fun _ _ _ => rfl
    · refine Option.ext fun found => ?_
      rw [find_claim]
      refine ⟨.inl, fun h => h.resolve_right fun ⟨_, hkey, _⟩ => ?_⟩
      have hother : V row.clientId = false := hx
      obtain rfl : row.clientId = clientId := congrArg Prod.fst hkey
      rw [hclientId] at hother
      cases hother
    · rw [Statement.claim_after]
      exact fun _ _ => rfl
  · exact ⟨fun _ _ => rfl, fun _ _ _ => rfl, fun _ _ _ => rfl, fun _ _ => rfl⟩
  · refine ⟨?_, ?_, ?_, fun jti hjti => ?_⟩
    · rw [Statement.record_after]
      exact fun _ _ => rfl
    · rw [Statement.record_after]
      exact fun _ _ _ => rfl
    · rw [Statement.record_after]
      exact fun _ _ _ => rfl
    · refine Option.ext fun found => ?_
      rw [find_record]
      refine ⟨.inl, fun h => h.resolve_right fun ⟨_, hkey, _⟩ => ?_⟩
      have hother : J issuance.jti = false := hx
      rw [hkey, hjti] at hother
      cases hother

/-! ## Registrations -/

/-- What an administrator, or a purge, does to the store. -/
inductive Registration
  | upsert (client : RegisteredClient)
  | addKey (key : ClientKey)
  | purgeExpired (now : ℚ)

namespace Registration

/-- The call of a repository that makes the change. -/
def call : Registration → RepositoryCall
  | upsert client => .upsertClient client
  | addKey key => .addClientKey key
  | purgeExpired now => .purgeExpired now

/-- The state after the change, whether it went through or not. -/
def apply (order : Collation) (change : Option Exc × Registration) (s : ServerState) : ServerState :=
  finalState ((change.2.call.exec order change.1).run s)

/-- It is about these clients; a purge is about all. -/
def concerns (V : String → Bool) : Registration → Bool
  | upsert client => V client.clientId
  | addKey key => V key.clientId
  | purgeExpired _ => true

/-- The statement of a change, when the driver and the database let it through. -/
def onRecords : Registration → ServerState → ServerState
  | upsert client, s => { s with clients := s.clients.upsert client }
  | addKey key, s =>
      if s.clients.find key.clientId = none then s
      else { s with clientKeys := s.clientKeys.upsert key }
  | purgeExpired now, s => { s with assertionJtis := s.assertionJtis.purgeExpired now }

/-- A change does nothing in any state, or its statement is executed in all. -/
theorem apply_cases (order : Collation) (fault : Option Exc) (change : Registration) :
    (∀ s, apply order (fault, change) s = s) ∨
      ∀ s, apply order (fault, change) s = change.onRecords s := by
  simp only [apply, RepositoryCall.exec, run_atomically]
  cases textParameters change.call.parameters with
  | error e => exact .inl fun _ => rfl
  | ok _ =>
      cases fault with
      | some e => exact .inl fun _ => rfl
      | none =>
          refine .inr fun s => ?_
          cases change with
          | upsert client => rfl
          | purgeExpired now => rfl
          | addKey key =>
              by_cases hfind : s.clients.find key.clientId = none <;>
                simp [call, RepositoryCall.onRecords, ServerState.addClientKey, onRecords, hfind,
                  raiseIf] <;> rfl

end Registration

theorem SameFor.onRecords (h : SameFor V J s t) {change : Registration}
    (hchange : change.concerns V = true) :
    SameFor V J (change.onRecords s) (change.onRecords t) := by
  cases change with
  | upsert client =>
      refine ⟨fun clientId hclientId => ?_, h.clientKeys, h.assertionJtis, h.issuedCredentials⟩
      simp only [Registration.onRecords, Table.find_upsert, h.clients clientId hclientId]
  | addKey key =>
      simp only [Registration.onRecords, h.clients key.clientId hchange]
      split
      · exact h
      · refine ⟨h.clients, fun clientId hclientId kid => ?_, h.assertionJtis, h.issuedCredentials⟩
        simp only [Table.find_upsert, h.clientKeys clientId hclientId]
  | purgeExpired now =>
      refine ⟨h.clients, h.clientKeys, fun clientId hclientId jti => ?_, h.issuedCredentials⟩
      simp only [Registration.onRecords, ReplayTable.purgeExpired, Table.find_deleteWhere,
        h.assertionJtis clientId hclientId]

theorem sameFor_onRecords {change : Registration} (hchange : change.concerns V = false)
    (s : ServerState) : SameFor V J s (change.onRecords s) := by
  have hne : ∀ {clientId other}, V clientId = true → V other = false → clientId ≠ other := by
    rintro clientId other hin hout rfl
    rw [hin] at hout
    cases hout
  cases change with
  | upsert client =>
      refine ⟨fun clientId hclientId => ?_, fun _ _ _ => rfl, fun _ _ _ => rfl, fun _ _ => rfl⟩
      simp only [Registration.onRecords, Table.find_upsert, if_neg (hne hclientId hchange)]
  | addKey key =>
      simp only [Registration.onRecords]
      split
      · exact SameFor.refl s
      · refine ⟨fun _ _ => rfl, fun clientId hclientId kid => ?_, fun _ _ _ => rfl, fun _ _ => rfl⟩
        have hkey : (clientId, kid) ≠ key.primaryKey := fun heq =>
          hne hclientId hchange (congrArg Prod.fst heq)
        simp only [Table.find_upsert, if_neg hkey]
  | purgeExpired now => cases hchange

/-! ## Any interleaving -/

namespace Server

/-- The server, with requests and registrations interleaved. -/
def registering (server : Server) (order : Collation) :
    Workload Statement.Answer Job (Option Exc × Registration) Exc ServerState TokenResponse where
  exec := Statement.exec
  script job := server.requestScript job.moment job.request
  environment := Registration.apply order

/-- The rows of some clients, and of some `jti`s. -/
def part (server : Server) (order : Collation) (V J : String → Bool) :
    Part (server.registering order) where
  agree := SameFor V J
  inside := Inside V J
  outside := Outside V J
  insideChange change := change.2.concerns V
  outsideChange change := change.2.concerns V = false
  expects := Expected
  refl := SameFor.refl
  symm := SameFor.symm
  trans := SameFor.trans
  expected {x s v} h := by
    cases x with
    | getClient clientId =>
        intro client hclient
        change outcome ((lift (s.clients.get clientId) : ServerM _).run s) = .ok v at h
        rw [outcome_lift, hclient] at h
        exact (ClientTable.get_eq_ok_some h).2
    | _ => trivial
  answer hx h := h.answer hx
  after hx h := h.after hx
  spares hx := sameFor_after hx _
  change {change s t} hchange h := by
    obtain ⟨fault, change⟩ := change
    change SameFor V J (Registration.apply order (fault, change) s)
      (Registration.apply order (fault, change) t)
    rcases Registration.apply_cases order fault change with hquiet | happly
    · rw [hquiet, hquiet]
      exact h
    · rw [happly, happly]
      exact h.onRecords hchange
  sparesChange {change s} hchange := by
    obtain ⟨fault, change⟩ := change
    change SameFor V J s (Registration.apply order (fault, change) s)
    rcases Registration.apply_cases order fault change with hquiet | happly
    · rw [hquiet]
      exact SameFor.refl s
    · rw [happly]
      exact sameFor_onRecords hchange s

/-- The event is a registration of these clients, or one of these processes
makes it. -/
def concerns (V : String → Bool) (mine : ℕ → Bool) :
    Interleaving.Event (Option Exc × Registration) (Act Job) → Bool
  | .environment change => change.2.concerns V
  | .act i _ => mine i

end Server

namespace Example.Isolation

/-- R asks for a token while A does, and while another client is registered. -/
def events : List (Interleaving.Event (Option Exc × Registration) (Act Job)) :=
  [.act 0 (.submit Example.Serializable.jobR), .act 1 (.submit Example.Serializable.jobA),
    .act 0 .advance, .act 1 .advance, .environment (none, .upsert Example.clientK),
    .act 1 .advance, .act 0 .advance, .act 1 .advance, .act 0 .advance]

def isR (name : String) : Bool :=
  name == "r"

def isTokenR (jti : String) : Bool :=
  jti == "R"

def rIsMine (i : ℕ) : Bool :=
  i == 0

end Example.Isolation

namespace Server

/-- **Clients do not disturb each other.**  The processes that are `mine` are
given requests that name clients in `V` and draw `jti`s in `J`, and all others
requests that name none and draw none of them.  Then every process that is mine
comes as far, and to the same answer, as without the others, and the rows are
the same. -/
theorem clients_isolated (server : Server) (order : Collation) (V J : String → Bool)
    (mine : ℕ → Bool) (s : ServerState)
    {events : List (Interleaving.Event (Option Exc × Registration) (Act Job))}
    (hsides : ∀ i job, .act i (.submit job) ∈ events →
      (∀ clientId ∈ server.names job, V clientId = mine i) ∧ J job.moment.jti = mine i) :
    let all := (server.registering order).machine.run ⟨s, fun _ => .idle⟩ events
    let alone := (server.registering order).machine.run ⟨s, fun _ => .idle⟩
      (events.filter (concerns V mine))
    (∀ i, mine i = true → all.own i = alone.own i) ∧ SameFor V J all.shared alone.shared := by
  have hsorted : ∀ e ∈ events, (server.part order V J).Sorted mine e := by
    intro e he
    cases e with
    | environment change =>
        cases hconcerns : change.2.concerns V with
        | true => exact .inl hconcerns
        | false => exact .inr hconcerns
    | act i act =>
        cases act with
        | advance => trivial
        | submit job =>
            obtain ⟨hnames, hjti⟩ := hsides i job he
            cases hmine : mine i with
            | true =>
                -- a request of ours names only clients of this side, any other one none of them
                rw [hmine] at hnames hjti
                rw [Part.Sorted, Part.Confines, hmine, if_pos rfl]
                exact touches_requestScript (C := fun clientId => V clientId = true)
                  (D := fun jti => J jti = true) hnames hjti
            | false =>
                rw [hmine] at hnames hjti
                rw [Part.Sorted, Part.Confines, hmine, if_neg Bool.false_ne_true]
                exact touches_requestScript (C := fun clientId => V clientId = false)
                  (D := fun jti => J jti = false) hnames hjti
  -- what the part hides is what the filter drops
  have hconcerns : visible ((server.part order V J).hidden mine) events =
      events.filter (concerns V mine) := by
    refine List.filter_congr fun e _ => ?_
    cases e <;> exact Bool.not_not _
  have hidle : (server.part order V J).Confined mine ⟨s, fun _ => .idle⟩ := by
    intro i job k hown
    cases hown
  have halike := Part.confined (server.part order V J) mine hidle hsorted
  rw [hconcerns] at halike
  exact ⟨halike.own, halike.shared⟩

theorem clients_isolated_r :
    Example.Serializable.reply (((Example.server.registering fun _ _ => true).machine.run
      ⟨{ clients := Example.registry }, fun _ => .idle⟩ Example.Isolation.events).own 0) =
        some ("R", "R") := by
  have hsides : ∀ i job, .act i (.submit job) ∈ Example.Isolation.events →
      (∀ clientId ∈ Example.server.names job,
        Example.Isolation.isR clientId = Example.Isolation.rIsMine i) ∧
        Example.Isolation.isTokenR job.moment.jti = Example.Isolation.rIsMine i := by
    intro i job hmem
    have hjob : (i, job) = (0, Example.Serializable.jobR) ∨
        (i, job) = (1, Example.Serializable.jobA) := by
      simpa [Example.Isolation.events] using hmem
    rcases hjob with h | h <;> obtain ⟨rfl, rfl⟩ := Prod.mk.inj h <;> decide +kernel
  obtain ⟨hown, _⟩ := clients_isolated Example.server (fun _ _ => true) Example.Isolation.isR
    Example.Isolation.isTokenR Example.Isolation.rIsMine { clients := Example.registry } hsides
  rw [hown 0 rfl]
  decide +kernel

end Server

end AgentOAuth
