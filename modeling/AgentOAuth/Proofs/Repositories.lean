import AgentOAuth.Model.Repositories
import AgentOAuth.Model.Statements
import AgentOAuth.Model.TokenBook

/-!
# Columns and records

The repositories write a client as columns and read it back through
`_to_client`; the rest of the development works with tables of records.  No
program that uses the repositories can tell the two apart
(`repositories_refine`), and the token endpoint in particular answers as it does
on records (`endpoint_onRows`).  This rests on `toClient_row`: what `upsert`
writes, `_to_client` reads back.
-/

namespace AgentOAuth

open Effect

variable {order : Collation} {rows : Rows} {s : ServerState}

/-! ## One client -/

theorem clientStatus_text (status : ClientStatus) : clientStatus status.text = .ok status := by
  cases status <;> rfl

/-- A client survives its columns. -/
theorem toClient_row (client : RegisteredClient) : toClient client.row = .ok client := by
  have hscopes : (sortedMembers client.allowedScopes).toFinset = client.allowedScopes :=
    Finset.sort_toFinset _ _
  have haudiences : (sortedMembers client.allowedAudiences).toFinset = client.allowedAudiences :=
    Finset.sort_toFinset _ _
  rw [toClient, dif_neg (show client.row.clientId ≠ "" from client.clientId_ne),
    dif_neg (show client.row.subject ≠ "" from client.subject_ne)]
  simp only [RegisteredClient.row, clientStatus_text, hscopes, haudiences]
  rfl

theorem mapM_toClient (clients : List RegisteredClient) :
    (clients.map RegisteredClient.row).mapM toClient = (.ok clients : Except Exc _) := by
  induction clients with
  | nil => rfl
  | cons client rest ih =>
      rw [List.map_cons, List.mapM_cons, toClient_row, ih]
      rfl

/-! ## The tables -/

/-- The rows hold the records. -/
structure Holds (rows : Rows) (s : ServerState) : Prop where
  clients : rows.clients.rows = s.clients.rows.map RegisteredClient.row
  clientKeys : rows.clientKeys = s.clientKeys
  assertionJtis : rows.assertionJtis = s.assertionJtis
  issuedCredentials : rows.issuedCredentials = s.issuedCredentials

theorem Holds.find (h : Holds rows s) (clientId : String) :
    rows.clients.find clientId = (s.clients.find clientId).map RegisteredClient.row := by
  simp only [Table.find, h.clients, List.find?_map]
  rfl

theorem Holds.upsertClient (h : Holds rows s) (client : RegisteredClient) :
    Holds (rows.upsertClient client) { s with clients := s.clients.upsert client } where
  clients := by
    simp only [Rows.upsertClient, Table.upsert, Table.deleteWhere, h.clients, List.map_cons,
      List.filter_map]
    rfl
  clientKeys := h.clientKeys
  assertionJtis := h.assertionJtis
  issuedCredentials := h.issuedCredentials

/-- Both raise the same, or both answer the same and still agree. -/
def Agree {α : Type} : Except Exc (α × Rows) → Except Exc (α × ServerState) → Prop
  | .ok x, .ok y => x.1 = y.1 ∧ Holds x.2 y.2
  | .error e, .error e' => e = e'
  | _, _ => False

theorem Holds.addClientKey (h : Holds rows s) (key : ClientKey) :
    Agree ((rows.addClientKey key).map fun t => ((), t))
      ((s.addClientKey key).map fun t => ((), t)) := by
  have hfind := h.find key.clientId
  unfold Rows.addClientKey ServerState.addClientKey
  cases hclient : s.clients.find key.clientId with
  | none =>
      rw [hclient, Option.map_none] at hfind
      rw [dif_pos hfind]
      rfl
  | some client =>
      rw [hclient, Option.map_some] at hfind
      rw [dif_neg (by simp [hfind])]
      exact ⟨rfl, h.clients, congrArg (·.upsert key) h.clientKeys, h.assertionJtis,
        h.issuedCredentials⟩

theorem Holds.record (h : Holds rows s) (issuance : IssuanceRecord) :
    Agree ((rows.record issuance).map fun t => ((), t))
      ((s.record issuance).map fun t => ((), t)) := by
  rw [Rows.record, ServerState.record, h.issuedCredentials]
  cases s.issuedCredentials.record false issuance with
  | error e => rfl
  | ok written => exact ⟨rfl, h.clients, h.clientKeys, h.assertionJtis, rfl⟩

/-- **The step lemma**: one statement, on rows and on the records they hold. -/
theorem Holds.onRows (h : Holds rows s) (order : Collation) (call : RepositoryCall) :
    Agree (call.onRows order rows) (call.onRecords order s) := by
  cases call with
  | getClient clientId =>
      rw [RepositoryCall.onRows, h.find, RepositoryCall.onRecords]
      cases s.clients.find clientId with
      | none => exact ⟨rfl, h⟩
      | some client =>
          simp only [Option.map_some, toClient_row]
          exact ⟨rfl, h⟩
  | allClients =>
      have hsort : (rows.clients.rows.mergeSort fun a b => order a.clientId b.clientId) =
          (s.clients.rows.mergeSort fun a b => order a.clientId b.clientId).map
            RegisteredClient.row := by
        rw [h.clients]
        exact (List.map_mergeSort (f := RegisteredClient.row) fun _ _ _ _ => rfl).symm
      -- rows are sorted by a column that the record has too
      rw [RepositoryCall.onRows, hsort, mapM_toClient, RepositoryCall.onRecords]
      exact ⟨rfl, h⟩
  | upsertClient client => exact ⟨rfl, h.upsertClient client⟩
  | getClientKey clientId kid =>
      rw [RepositoryCall.onRows, h.clientKeys]
      exact ⟨rfl, h⟩
  | addClientKey key => exact h.addClientKey key
  | claim row =>
      rw [RepositoryCall.onRows, RepositoryCall.onRecords, h.assertionJtis]
      exact ⟨rfl, h.clients, h.clientKeys, rfl, h.issuedCredentials⟩
  | purgeExpired now =>
      rw [RepositoryCall.onRows, RepositoryCall.onRecords, h.assertionJtis]
      exact ⟨rfl, h.clients, h.clientKeys, rfl, h.issuedCredentials⟩
  | record issuance => exact h.record issuance
  | getIssued jti =>
      rw [RepositoryCall.onRows, h.issuedCredentials]
      exact ⟨rfl, h⟩
  | countIssued =>
      rw [RepositoryCall.onRows, h.issuedCredentials]
      exact ⟨rfl, h⟩

/-! ## Programs -/

/-- A call, and the fault it meets. -/
abbrev FaultyCall := Option Exc × RepositoryCall

/-- What the call returns. -/
abbrev FaultyCall.Answer (x : FaultyCall) : Type := x.2.Answer

/-- The call on the records. -/
def FaultyCall.exec (order : Collation) (x : FaultyCall) : ServerM x.Answer :=
  x.2.exec order x.1

/-- The call on the columns. -/
def FaultyCall.execRows (order : Collation) (x : FaultyCall) : EStateM Exc Rows x.Answer :=
  x.2.execRows order x.1

theorem Agree.atomically {α : Type} {f : Rows → Except Exc (α × Rows)}
    {g : ServerState → Except Exc (α × ServerState)} (hagree : Agree (f rows) (g s))
    (h : Holds rows s) :
    outcome ((Effect.atomically f).run rows) = outcome ((Effect.atomically g).run s) ∧
      Holds (finalState ((Effect.atomically f).run rows))
        (finalState ((Effect.atomically g).run s)) := by
  rw [run_atomically, run_atomically]
  cases hf : f rows with
  | ok x =>
      cases hg : g s with
      | ok y =>
          rw [hf, hg] at hagree
          exact ⟨congrArg Except.ok hagree.1, hagree.2⟩
      | error e =>
          rw [hf, hg] at hagree
          exact hagree.elim
  | error e =>
      cases hg : g s with
      | ok y =>
          rw [hf, hg] at hagree
          exact hagree.elim
      | error e' =>
          rw [hf, hg] at hagree
          exact ⟨congrArg Except.error hagree, h⟩

theorem Holds.exec (h : Holds rows s) (order : Collation) (fault : Option Exc)
    (call : RepositoryCall) :
    outcome ((call.execRows order fault).run rows) = outcome ((call.exec order fault).run s) ∧
      Holds (finalState ((call.execRows order fault).run rows))
        (finalState ((call.exec order fault).run s)) := by
  refine Agree.atomically ?_ h
  cases textParameters call.parameters with
  | error e => rfl
  | ok _ =>
      cases fault with
      | some e => rfl
      | none => exact h.onRows order call

namespace Example.Repositories

/-- The columns of the three clients, in a database without keys. -/
def columns : Rows where
  clients := ⟨registry.rows.map RegisteredClient.row, by decide⟩
  status_known := by
    intro row hrow
    obtain ⟨client, _, rfl⟩ := List.mem_map.mp hrow
    cases hstatus : client.status <;> simp [RegisteredClient.row, ClientStatus.text, hstatus]
  references := fun _ hkey => by cases hkey

theorem holds_columns : Holds columns { clients := registry } :=
  ⟨rfl, rfl, rfl, rfl⟩

/-- Look a client up, and claim an assertion of its twice. -/
def claimTwice : Script FaultyCall.Answer Exc (Option String × Bool × Bool) := do
  let client ← Script.op ((none, .getClient "r") : FaultyCall)
  let first ← Script.op ((none, .claim ⟨"r", "once", 1300⟩) : FaultyCall)
  let second ← Script.op ((none, .claim ⟨"r", "once", 1300⟩) : FaultyCall)
  pure (client.map RegisteredClient.subject, first, second)

end Example.Repositories

/-- **Columns or records, no program can tell.**  Every program over the
repositories, whatever faults it meets, ends on rows as it ends on the records
that they hold, and leaves rows that hold the records it leaves. -/
theorem repositories_refine {α : Type} (order : Collation) (h : Holds rows s)
    (program : Script FaultyCall.Answer Exc α) :
    program.result (FaultyCall.execRows order) rows = program.result (FaultyCall.exec order) s ∧
      Holds (program.final (FaultyCall.execRows order) rows)
        (program.final (FaultyCall.exec order) s) :=
  Script.refines (fun x _ _ h => h.exec order x.1 x.2) program h

theorem repositories_refine_claimTwice :
    Example.Repositories.claimTwice.result (FaultyCall.execRows fun a b => decide (a ≤ b))
      Example.Repositories.columns = .ok (some "root", true, false) :=
  (repositories_refine _ Example.Repositories.holds_columns Example.Repositories.claimTwice).1.trans
    (by decide +kernel)

/-! ## The token endpoint -/

theorem textParameters_singleton (text : String) : textParameters [text] = textParameter text := by
  unfold textParameters textParameter textsError?
  cases herror : textError? text <;> simp [List.findSome?, herror]

theorem textParameters_pair (first second : String) :
    textParameters [first, second] = (do textParameter first; textParameter second) := by
  unfold textParameters textParameter textsError?
  cases hfirst : textError? first with
  | some className =>
      rw [List.findSome?_cons_of_isSome (by rw [hfirst]; rfl), hfirst]
      rfl
  | none =>
      rw [List.findSome?_cons_of_isNone (by rw [hfirst]; rfl)]
      cases hsecond : textError? second <;> simp [List.findSome?, hsecond] <;> rfl

/-- The rows, and every payload the signing key was applied to. -/
abbrev SignedRows := Rows × List (String × Dict)

/-- A call on the rows. -/
def onFirst {α : Type} (x : EStateM Exc Rows α) : EStateM Exc SignedRows α := fun p =>
  match x.run p.1 with
  | .ok a rows => .ok a (rows, p.2)
  | .error e rows => .error e (rows, p.2)

/-- The insert of the pipeline fails for reasons of the database. -/
def insertFault (insertFails : Bool) : Option Exc :=
  if insertFails then some (.python "OperationalError") else none

/-- The statements of the endpoint, as calls of the repositories. -/
def Statement.onRows (order : Collation) : (x : Statement) → EStateM Exc SignedRows x.Answer
  | getClient clientId => onFirst ((RepositoryCall.getClient clientId).execRows order none)
  | getClientKey clientId kid =>
      onFirst ((RepositoryCall.getClientKey clientId kid).execRows order none)
  | claim row => onFirst ((RepositoryCall.claim row).execRows order none)
  | sign minted => fun p => .ok () (p.1, (minted.token, signedPayload minted.claims) :: p.2)
  | record insertFails issuance =>
      onFirst ((RepositoryCall.record issuance).execRows order (insertFault insertFails))

/-- On records the statements are these calls as well. -/
theorem exec_getClient (order : Collation) (clientId : String) :
    (Statement.exec (.getClient clientId)).run s =
      ((RepositoryCall.getClient clientId).exec order none).run s := by
  change (lift (s.clients.get clientId) : ServerM _).run s = _
  rw [RepositoryCall.exec, run_atomically, RepositoryCall.parameters, textParameters_singleton,
    ClientTable.get]
  cases textParameter clientId <;> rfl

theorem exec_getClientKey (order : Collation) (clientId kid : String) :
    (Statement.exec (.getClientKey clientId kid)).run s =
      ((RepositoryCall.getClientKey clientId kid).exec order none).run s := by
  change (lift (s.clientKeys.get clientId kid) : ServerM _).run s = _
  rw [RepositoryCall.exec, run_atomically, RepositoryCall.parameters, textParameters_pair,
    ClientKeyTable.get]
  cases textParameter clientId with
  | error e => rfl
  | ok _ => cases textParameter kid <;> rfl

theorem exec_claim (order : Collation) (row : ReplayRow) :
    (Statement.exec (.claim row)).run s = ((RepositoryCall.claim row).exec order none).run s := by
  change (claimAssertion row).run s = _
  rw [RepositoryCall.exec, run_atomically, RepositoryCall.parameters, textParameters_pair,
    claimAssertion, run_atomically]
  cases textParameter row.clientId with
  | error e => rfl
  | ok _ => cases textParameter row.jti <;> rfl

theorem exec_record (order : Collation) (insertFails : Bool) (issuance : IssuanceRecord) :
    (Statement.exec (.record insertFails issuance)).run s =
      ((RepositoryCall.record issuance).exec order (insertFault insertFails)).run s := by
  change (recordIssuance insertFails issuance).run s = _
  rw [RepositoryCall.exec, run_atomically, recordIssuance, run_atomically]
  cases insertFails with
  | true => rfl
  | false =>
      simp only [insertFault, RepositoryCall.onRecords, ServerState.record]
      cases s.issuedCredentials.record false issuance <;> rfl

/-- No call applies the signing key. -/
theorem signed_exec (order : Collation) (fault : Option Exc) (call : RepositoryCall)
    (s : ServerState) : (finalState ((call.exec order fault).run s)).signed = s.signed := by
  rw [RepositoryCall.exec, run_atomically]
  cases textParameters call.parameters with
  | error e => rfl
  | ok _ =>
      cases fault with
      | some e => rfl
      | none =>
          cases call with
          | addClientKey key =>
              simp only [RepositoryCall.onRecords, ServerState.addClientKey]
              by_cases h : s.clients.find key.clientId = none <;> simp [h, raiseIf] <;> rfl
          | record issuance =>
              simp only [RepositoryCall.onRecords, ServerState.record]
              cases s.issuedCredentials.record false issuance <;> rfl
          | _ => rfl

/-- The rows hold the records, and the same payloads have been signed. -/
def HoldsSigned (p : SignedRows) (s : ServerState) : Prop :=
  Holds p.1 s ∧ p.2 = s.signed

theorem HoldsSigned.onFirst {p : SignedRows} (h : HoldsSigned p s) (fault : Option Exc)
    (call : RepositoryCall) :
    outcome ((AgentOAuth.onFirst (call.execRows order fault)).run p) =
        outcome ((call.exec order fault).run s) ∧
      HoldsSigned (finalState ((AgentOAuth.onFirst (call.execRows order fault)).run p))
        (finalState ((call.exec order fault).run s)) := by
  obtain ⟨hanswer, hholds⟩ := h.1.exec order fault call
  have hsigned := (signed_exec order fault call s).symm
  rw [← h.2] at hsigned
  change outcome (AgentOAuth.onFirst (call.execRows order fault) p) = _ ∧
    HoldsSigned (finalState (AgentOAuth.onFirst (call.execRows order fault) p)) _
  unfold AgentOAuth.onFirst
  cases hrun : (call.execRows order fault).run p.1 with
  | ok a rows =>
      rw [hrun] at hanswer hholds
      exact ⟨hanswer, hholds, hsigned⟩
  | error e rows =>
      rw [hrun] at hanswer hholds
      exact ⟨hanswer, hholds, hsigned⟩

/-- **The endpoint on columns** answers every request as it does on the records,
and leaves the same tables. -/
theorem endpoint_onRows (server : Server) (order : Collation) (moment : Moment) (request : Request)
    {p : SignedRows} (h : HoldsSigned p s) :
    (server.requestScript moment request).result (Statement.onRows order) p =
        outcome ((server.getOauthToken moment request).run s) ∧
      HoldsSigned ((server.requestScript moment request).final (Statement.onRows order) p)
        (finalState ((server.getOauthToken moment request).run s)) := by
  have hstatement : ∀ (x : Statement) (p : SignedRows) (s : ServerState), HoldsSigned p s →
      Script.answer (Statement.onRows order) x p = Script.answer Statement.exec x s ∧
        HoldsSigned (Script.after (Statement.onRows order) x p)
          (Script.after Statement.exec x s) := by
    intro x p s h
    unfold Script.answer Script.after
    cases x with
    | getClient clientId =>
        rw [exec_getClient order]
        exact h.onFirst none (.getClient clientId)
    | getClientKey clientId kid =>
        rw [exec_getClientKey order]
        exact h.onFirst none (.getClientKey clientId kid)
    | claim row =>
        -- the statements on both sides are calls of the repositories
        rw [exec_claim order]
        exact h.onFirst none (.claim row)
    | sign minted =>
        obtain ⟨hholds, hsigned⟩ := h
        exact ⟨rfl, ⟨hholds.clients, hholds.clientKeys, hholds.assertionJtis,
          hholds.issuedCredentials⟩, congrArg (_ :: ·) hsigned⟩
    | record insertFails issuance =>
        rw [exec_record order]
        exact h.onFirst (insertFault insertFails) (.record issuance)
  rw [← server.run_requestScript]
  exact Script.refines hstatement (server.requestScript moment request) h

theorem endpoint_onRows_R :
    ((Example.server.requestScript (Example.momentAt 1000 "R") (Example.ask "r" "x y")).result
      (Statement.onRows fun a b => decide (a ≤ b)) (Example.Repositories.columns, [])).map
        TokenResponse.accessToken = .ok "R" := by
  rw [(endpoint_onRows Example.server _ _ _ ⟨Example.Repositories.holds_columns, rfl⟩).1]
  decide +kernel

end AgentOAuth
