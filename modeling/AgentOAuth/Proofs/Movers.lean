import AgentOAuth.Lib.Reduction
import AgentOAuth.Model.Statements

/-!
# The statements of a request as movers

A request reads the registry, which no request writes, until it claims its
assertion, if it has one.  What it does after that commutes with the statements
of all other requests, as long as no two of them draw the same `jti`: it reads
the registry, applies the signing key and inserts a row of its own.

`Server.shape_requestScript` is the first half of this, `Server.movers` the
second.
-/

namespace AgentOAuth

open Effect Reduction Script Workloads

/-! ## What each statement leaves alone -/

/-- The same rows in every table, in any order where order cannot be seen. -/
structure SameRows (s t : ServerState) : Prop where
  clients : s.clients = t.clients
  clientKeys : s.clientKeys = t.clientKeys
  assertionJtis : s.assertionJtis = t.assertionJtis
  issuedCredentials : s.issuedCredentials.rows.Perm t.issuedCredentials.rows
  signed : s.signed.Perm t.signed

theorem SameRows.refl (s : ServerState) : SameRows s s :=
  ⟨rfl, rfl, rfl, List.Perm.refl _, List.Perm.refl _⟩

theorem SameRows.symm {s t : ServerState} (h : SameRows s t) : SameRows t s :=
  ⟨h.clients.symm, h.clientKeys.symm, h.assertionJtis.symm, h.issuedCredentials.symm, h.signed.symm⟩

theorem SameRows.trans {s t u : ServerState} (h : SameRows s t) (h' : SameRows t u) :
    SameRows s u :=
  ⟨h.clients.trans h'.clients, h.clientKeys.trans h'.clientKeys,
    h.assertionJtis.trans h'.assertionJtis, h.issuedCredentials.trans h'.issuedCredentials,
      h.signed.trans h'.signed⟩

/-- The registry and the keys of the clients. -/
def registry (s : ServerState) : ClientTable × ClientKeyTable := (s.clients, s.clientKeys)

theorem SameRows.registry {s t : ServerState} (h : SameRows s t) :
    AgentOAuth.registry s = AgentOAuth.registry t :=
  Prod.ext h.clients h.clientKeys

namespace Statement

/-- `SELECT` from the registry. -/
def IsRead : Statement → Prop
  | getClient _ => True
  | getClientKey _ _ => True
  | _ => False

/-- Everything but the claim of an assertion. -/
def IsLate : Statement → Prop
  | claim _ => False
  | _ => True

variable {x : Statement} {s t : ServerState} {row : ReplayRow} {minted : MintedToken}
  {insertFails : Bool} {issuance : IssuanceRecord}

theorem after_of_isRead (h : x.IsRead) (s : ServerState) : after exec x s = s := by
  cases x with
  | getClient clientId => exact finalState_lift _ s
  | getClientKey clientId kid => exact finalState_lift _ s
  | claim row => cases h
  | sign minted => cases h
  | record insertFails issuance => cases h

theorem answer_of_isRead (h : x.IsRead) (hregistry : registry s = registry t) :
    answer exec x s = answer exec x t := by
  cases x with
  | getClient clientId =>
      have hclients : s.clients = t.clients := congrArg Prod.fst hregistry
      exact (outcome_lift _ s).trans (hclients ▸ (outcome_lift _ t).symm)
  | getClientKey clientId kid =>
      have hkeys : s.clientKeys = t.clientKeys := congrArg Prod.snd hregistry
      exact (outcome_lift _ s).trans (hkeys ▸ (outcome_lift _ t).symm)
  | claim row => cases h
  | sign minted => cases h
  | record insertFails issuance => cases h

/-! ### `claim` -/

/-- A claim reads and writes the replay table. -/
theorem claim_congr (row : ReplayRow) (h : s.assertionJtis = t.assertionJtis) :
    answer exec (claim row) s = answer exec (claim row) t ∧
      (after exec (claim row) s).assertionJtis = (after exec (claim row) t).assertionJtis := by
  change outcome ((claimAssertion row).run s) = outcome ((claimAssertion row).run t) ∧
    (finalState ((claimAssertion row).run s)).assertionJtis =
      (finalState ((claimAssertion row).run t)).assertionJtis
  simp only [claimAssertion, run_atomically, h]
  cases textParameter row.clientId with
  | error e => exact ⟨rfl, h⟩
  | ok u =>
      cases textParameter row.jti with
      | error e => exact ⟨rfl, h⟩
      | ok v => exact ⟨rfl, rfl⟩

theorem claim_after (row : ReplayRow) (s : ServerState) :
    after exec (claim row) s = { s with assertionJtis := (after exec (claim row) s).assertionJtis } := by
  have hkept : exceptReplays (after exec (claim row) s) = exceptReplays s :=
    keeps_claimAssertion row s
  simp only [exceptReplays, Prod.mk.injEq] at hkept
  obtain ⟨hclients, hkeys, hissued, hsigned⟩ := hkept
  cases hafter : after exec (claim row) s with
  | mk clients clientKeys assertionJtis issuedCredentials signed =>
      rw [hafter] at hclients hkeys hissued hsigned
      subst hclients hkeys hissued hsigned
      rfl

/-! ### `record` -/

/-- The ledger after an attempt to write a row. -/
def recorded (insertFails : Bool) (issuance : IssuanceRecord) (ledger : IssuedCredentialTable) :
    IssuedCredentialTable :=
  match ledger.record insertFails issuance with
  | .ok written => written
  | .error _ => ledger

theorem record_after (insertFails : Bool) (issuance : IssuanceRecord) (s : ServerState) :
    after exec (record insertFails issuance) s =
      { s with issuedCredentials := recorded insertFails issuance s.issuedCredentials } := by
  change finalState ((recordIssuance insertFails issuance).run s) = _
  simp only [recordIssuance, run_atomically, recorded]
  cases s.issuedCredentials.record insertFails issuance <;> rfl

theorem record_answer (insertFails : Bool) (issuance : IssuanceRecord) (s : ServerState) :
    answer exec (record insertFails issuance) s =
      (s.issuedCredentials.record insertFails issuance).map fun _ => () := by
  change outcome ((recordIssuance insertFails issuance).run s) = _
  simp only [recordIssuance, run_atomically]
  cases s.issuedCredentials.record insertFails issuance <;> rfl

/-- Whether the row is written depends on its own `jti` only. -/
theorem recorded_rows (insertFails : Bool) (issuance : IssuanceRecord)
    (ledger : IssuedCredentialTable) :
    (recorded insertFails issuance ledger).rows =
      if insertFails = false ∧ ledger.find issuance.jti = none then issuance :: ledger.rows
      else ledger.rows := by
  cases hrecord : ledger.record insertFails issuance with
  | ok written =>
      obtain ⟨hfails, hinsert⟩ := IssuedCredentialTable.record_eq_ok.mp hrecord
      obtain ⟨hfree, hrows⟩ := Table.insert_eq_some.mp hinsert
      rw [if_pos ⟨hfails, hfree⟩, recorded, hrecord, ← hrows]
  | error e =>
      have hnot : ¬ (insertFails = false ∧ ledger.find issuance.jti = none) := by
        rintro ⟨hfails, hfree⟩
        cases hinsert : ledger.insert issuance with
        | none => exact Table.insert_eq_none.mp hinsert hfree
        | some written =>
            rw [IssuedCredentialTable.record_eq_ok.mpr ⟨hfails, hinsert⟩] at hrecord
            cases hrecord
      rw [if_neg hnot, recorded, hrecord]

/-- What the insert answers depends on the `jti` as well. -/
theorem record_map_unit (insertFails : Bool) (issuance : IssuanceRecord)
    (ledger : IssuedCredentialTable) :
    (ledger.record insertFails issuance).map (fun _ => ()) =
      if insertFails then .error (.python "OperationalError")
      else if ledger.find issuance.jti = none then .ok ()
      else .error (.python "UniqueViolation") := by
  unfold IssuedCredentialTable.record
  cases insertFails with
  | true => rfl
  | false =>
      simp only [Bool.false_eq_true, if_false]
      cases hinsert : ledger.insert issuance with
      | some written =>
          rw [if_pos (Table.insert_eq_some.mp hinsert).1]
          rfl
      | none =>
          rw [if_neg (Table.insert_eq_none.mp hinsert)]
          rfl

theorem find_recorded_of_ne (insertFails : Bool) {issuance : IssuanceRecord} {jti : String}
    (hne : issuance.jti ≠ jti) (ledger : IssuedCredentialTable) :
    (recorded insertFails issuance ledger).find jti = ledger.find jti := by
  unfold recorded
  cases hrecord : ledger.record insertFails issuance with
  | ok written =>
      exact Table.find_insert_of_ne (IssuedCredentialTable.record_eq_ok.mp hrecord).2 hne
  | error e => rfl

theorem recorded_congr (insertFails : Bool) (issuance : IssuanceRecord)
    {ledger ledger' : IssuedCredentialTable} (h : ledger.rows.Perm ledger'.rows) :
    (recorded insertFails issuance ledger).rows.Perm (recorded insertFails issuance ledger').rows := by
  rw [recorded_rows, recorded_rows, Table.find_congr h]
  split
  · exact h.cons issuance
  · exact h

/-- Two rows with different `jti`s can be written in either order. -/
theorem recorded_comm (first second : Bool) {issuance issuance' : IssuanceRecord}
    (hne : issuance.jti ≠ issuance'.jti) (ledger : IssuedCredentialTable) :
    (recorded first issuance (recorded second issuance' ledger)).rows.Perm
      (recorded second issuance' (recorded first issuance ledger)).rows := by
  rw [recorded_rows, find_recorded_of_ne second (Ne.symm hne), recorded_rows second,
    recorded_rows second, find_recorded_of_ne first hne, recorded_rows first]
  split
  · split
    · exact List.Perm.swap _ _ _
    · exact List.Perm.refl _
  · exact List.Perm.refl _

/-! ### All statements -/

theorem shape_cases (x : Statement) :
    x.IsRead ∨ (∃ row, x = claim row) ∨ (∃ minted, x = sign minted) ∨
      ∃ insertFails issuance, x = record insertFails issuance := by
  cases x with
  | getClient clientId => exact .inl trivial
  | getClientKey clientId kid => exact .inl trivial
  | claim row => exact .inr (.inl ⟨row, rfl⟩)
  | sign minted => exact .inr (.inr (.inl ⟨minted, rfl⟩))
  | record insertFails issuance => exact .inr (.inr (.inr ⟨insertFails, issuance, rfl⟩))

theorem answer_congr (x : Statement) (h : SameRows s t) : answer exec x s = answer exec x t := by
  rcases x.shape_cases with hread | ⟨row, rfl⟩ | ⟨minted, rfl⟩ | ⟨insertFails, issuance, rfl⟩
  · exact answer_of_isRead hread h.registry
  · exact (claim_congr row h.assertionJtis).1
  · rfl
  · rw [record_answer, record_answer, record_map_unit, record_map_unit,
      Table.find_congr h.issuedCredentials]

theorem after_congr (x : Statement) (h : SameRows s t) :
    SameRows (after exec x s) (after exec x t) := by
  rcases x.shape_cases with hread | ⟨row, rfl⟩ | ⟨minted, rfl⟩ | ⟨insertFails, issuance, rfl⟩
  · rwa [after_of_isRead hread, after_of_isRead hread]
  · rw [claim_after, claim_after row t]
    exact ⟨h.clients, h.clientKeys, (claim_congr row h.assertionJtis).2, h.issuedCredentials,
      h.signed⟩
  · exact ⟨h.clients, h.clientKeys, h.assertionJtis, h.issuedCredentials, h.signed.cons _⟩
  · rw [record_after, record_after]
    exact ⟨h.clients, h.clientKeys, h.assertionJtis, recorded_congr _ _ h.issuedCredentials,
      h.signed⟩

/-- No statement of a request writes to the registry. -/
theorem registry_after (x : Statement) (s : ServerState) :
    registry (after exec x s) = registry s := by
  rcases x.shape_cases with hread | ⟨row, rfl⟩ | ⟨minted, rfl⟩ | ⟨insertFails, issuance, rfl⟩
  · rw [after_of_isRead hread]
  · rw [claim_after]
    rfl
  · rfl
  · rw [record_after]
    rfl

/-- A read commutes with everything that leaves the registry alone. -/
theorem commutes_of_isRead (h : x.IsRead) {g : ServerState → ServerState}
    (hg : ∀ s, registry (g s) = registry s) : Commutes exec SameRows x g where
  answer s := answer_of_isRead h (hg s)
  after s := by
    rw [after_of_isRead h, after_of_isRead h]
    exact SameRows.refl _

/-- What others write leaves a free `jti` free. -/
theorem find_after_of_ne {y : Statement} {jti : String}
    (hy : ∀ insertFails issuance, y = record insertFails issuance → issuance.jti ≠ jti)
    (s : ServerState) :
    (after exec y s).issuedCredentials.find jti = s.issuedCredentials.find jti := by
  rcases y.shape_cases with hread | ⟨row, rfl⟩ | ⟨minted, rfl⟩ | ⟨insertFails, issuance, rfl⟩
  · rw [after_of_isRead hread]
  · rw [claim_after]
  · rfl
  · rw [record_after]
    exact find_recorded_of_ne insertFails (hy insertFails issuance rfl) s.issuedCredentials

theorem commutes_sign (minted : MintedToken) (y : Statement) :
    Commutes exec SameRows (sign minted) (after exec y) where
  answer _ := rfl
  after s := by
    rcases y.shape_cases with hread | ⟨row, rfl⟩ | ⟨other, rfl⟩ | ⟨insertFails, issuance, rfl⟩
    · rw [after_of_isRead hread, after_of_isRead hread]
      exact SameRows.refl _
    · have hclaim := (claim_congr row (s := after exec (sign minted) s) (t := s) rfl).2
      rw [claim_after row s, claim_after row (after exec (sign minted) s)]
      exact ⟨rfl, rfl, hclaim.symm, List.Perm.refl _, List.Perm.refl _⟩
    · exact ⟨rfl, rfl, rfl, List.Perm.refl _, List.Perm.swap _ _ _⟩
    · rw [record_after, record_after]
      exact SameRows.refl _

theorem commutes_record {insertFails : Bool} {issuance : IssuanceRecord} {y : Statement}
    (hy : ∀ fails other, y = record fails other → other.jti ≠ issuance.jti) :
    Commutes exec SameRows (record insertFails issuance) (after exec y) where
  answer s := by
    rw [record_answer, record_answer, record_map_unit, record_map_unit, find_after_of_ne hy]
  after s := by
    rcases y.shape_cases with hread | ⟨row, rfl⟩ | ⟨minted, rfl⟩ | ⟨fails, other, rfl⟩
    · rw [after_of_isRead hread, after_of_isRead hread]
      exact SameRows.refl _
    · have hclaim := (claim_congr row (s := after exec (record insertFails issuance) s) (t := s)
        (by rw [record_after])).2
      rw [claim_after row s, claim_after row (after exec (record insertFails issuance) s), hclaim,
        record_after, record_after]
      exact SameRows.refl _
    · rw [record_after, record_after]
      exact SameRows.refl _
    · rw [record_after, record_after, record_after, record_after]
      exact ⟨rfl, rfl, rfl, recorded_comm _ _ (Ne.symm (hy fails other rfl)) _, List.Perm.refl _⟩

theorem commutes_purgeExpired (hx : x.IsLate) (now : ℚ) :
    Commutes exec SameRows x (Change.purgeExpired now).apply := by
  rcases x.shape_cases with hread | ⟨row, rfl⟩ | ⟨minted, rfl⟩ | ⟨insertFails, issuance, rfl⟩
  · exact commutes_of_isRead hread fun _ => rfl
  · cases hx
  · exact ⟨fun _ => rfl, fun _ => SameRows.refl _⟩
  · refine ⟨fun s => ?_, fun s => ?_⟩
    · rw [record_answer, record_answer]
      rfl
    · rw [record_after, record_after]
      exact SameRows.refl _

/-- A late statement does not touch the replay table. -/
theorem assertionJtis_after_of_isLate (hx : x.IsLate) (s : ServerState) :
    (after exec x s).assertionJtis = s.assertionJtis := by
  rcases x.shape_cases with hread | ⟨row, rfl⟩ | ⟨minted, rfl⟩ | ⟨insertFails, issuance, rfl⟩
  · rw [after_of_isRead hread]
  · cases hx
  · rfl
  · rw [record_after]

/-- What a late statement writes changes no answer to another request. -/
theorem answer_after_of_isLate (hx : x.IsLate) {y : Statement}
    (hy : ∀ fails other fails' other', x = record fails other → y = record fails' other' →
      other.jti ≠ other'.jti) (s : ServerState) :
    answer exec y (after exec x s) = answer exec y s := by
  rcases y.shape_cases with hread | ⟨row, rfl⟩ | ⟨minted, rfl⟩ | ⟨fails', other', rfl⟩
  · exact answer_of_isRead hread (registry_after x s)
  · exact (claim_congr row (assertionJtis_after_of_isLate hx s)).1
  · rfl
  · rw [record_answer, record_answer, record_map_unit, record_map_unit,
      find_after_of_ne fun fails other heq => hy fails other fails' other' heq rfl]

/-- A statement only adds to the ledger, and only its own row. -/
theorem mem_ledger_after {row : IssuanceRecord} :
    (row ∈ s.issuedCredentials → row ∈ (after exec x s).issuedCredentials) ∧
      (row ∈ (after exec x s).issuedCredentials →
        row ∈ s.issuedCredentials ∨ ∃ insertFails, x = .record insertFails row) := by
  rcases x.shape_cases with hread | ⟨claimed, rfl⟩ | ⟨minted, rfl⟩ | ⟨insertFails, issuance, rfl⟩
  · rw [after_of_isRead hread]
    exact ⟨id, .inl⟩
  · rw [claim_after]
    exact ⟨id, .inl⟩
  · exact ⟨id, .inl⟩
  · rw [record_after]
    simp only [Table.mem_iff, recorded_rows]
    split
    · refine ⟨List.mem_cons_of_mem _, fun h => ?_⟩
      rcases List.mem_cons.mp h with rfl | h
      · exact .inr ⟨insertFails, rfl⟩
      · exact .inl h
    · exact ⟨id, .inl⟩

end Statement

/-! ## The shape of a request -/

/-- The statements of a job: the only row it inserts carries its own `jti`. -/
def Job.Uses (job : Job) : Statement → Prop
  | .record _ issuance => issuance.jti = job.moment.jti
  | _ => True

/-- The two jobs draw different `jti`s. -/
def Job.Independent (a b : Job) : Prop := a.moment.jti ≠ b.moment.jti

theorem Job.uses_of_isRead (job : Job) {x : Statement} (h : x.IsRead) : job.Uses x := by
  cases x with
  | record insertFails issuance => cases h
  | _ => trivial

theorem Statement.isLate_of_isRead {x : Statement} (h : x.IsRead) : x.IsLate := by
  cases x with
  | claim row => cases h
  | _ => trivial

/-- Claims of an assertion, reads before it, anything but claims after it. -/
abbrev Job.Shape {α : Type} (job : Job) (k : RequestScript α) : Prop :=
  TwoPhase Statement.IsRead Statement.IsLate job.Uses k

/-- Past the claim of an assertion. -/
abbrev Job.Late {α : Type} (job : Job) (k : RequestScript α) : Prop :=
  k.Every fun x => job.Uses x ∧ x.IsLate

theorem PrivateKeyJwt.every_decodeScript (config : PrivateKeyJwt) (now : ℚ) (assertion : String)
    (client : Option RegisteredClient) :
    (config.decodeScript now assertion client).Every Statement.IsRead := by
  refine (every_finish _).bind fun header => ?_
  cases header.bind acceptableKid with
  | none => trivial
  | some kid =>
      cases client with
      | none => trivial
      | some client =>
          refine Every.bind (k := ClientKeyRepository.get client.clientId kid)
            ⟨trivial, fun _ => trivial⟩ fun key => ?_
          cases key <;> trivial

theorem TokenExchangeGrant.every_resolveScript (grant : TokenExchangeGrant) (moment : Moment)
    (form : TokenForm) (client : Option RegisteredClient) :
    (grant.resolveScript moment form client).Every Statement.IsRead := by
  have hactor : ∀ actorClaims, (actorClientScript actorClaims).Every Statement.IsRead := by
    intro actorClaims
    refine Every.bind ?_ fun stored => ?_
    · cases Dict.get actorClaims "client_id" with
      | str clientId => exact ⟨trivial, fun _ => trivial⟩
      | _ => trivial
    · cases stored <;> trivial
  refine (every_finish _).bind fun caller => (every_finish _).bind fun audience =>
    (every_finish _).bind fun subjectToken => (every_finish _).bind fun actorToken =>
      (every_finish _).bind fun _ => (every_finish _).bind fun subjectClaims =>
        (every_finish _).bind fun actorClaims => (hactor actorClaims).bind fun actorClient => ?_
  exact (every_finish _).bind fun actorSubject => (every_finish _).bind fun _ =>
    (every_finish _).bind fun tenant => (every_finish _).bind fun declared =>
      (every_finish _).bind fun _ => (every_finish _).bind fun subjectScopes =>
        (every_finish _).bind fun act => (every_finish _).bind fun actRoot =>
          (every_finish _).bind fun taskId => (every_finish _).bind fun maxExpiresAt => every_finish _

namespace Job

variable (job : Job)

theorem late_of_every_isRead {α : Type} {k : RequestScript α} (h : k.Every Statement.IsRead) :
    job.Late k :=
  h.mono fun _ hx => ⟨job.uses_of_isRead hx, Statement.isLate_of_isRead hx⟩

/-- Issuing signs, and inserts a row with the `jti` of the job. -/
theorem late_issueScript (pipeline : IssuancePipeline) (result : GrantResult) :
    job.Late (pipeline.issueScript job.moment result) := by
  refine (every_finish _).bind fun _ => (every_finish _).bind fun grantedScopes => ?_
  refine every_finish_bind fun minted hminted => ?_
  refine Every.bind (k := applyKey minted) ⟨⟨trivial, trivial⟩, fun _ => trivial⟩ fun _ => ?_
  refine every_finish_bind fun issuance hissuance => ?_
  obtain ⟨row, hrow, hjti⟩ := IssuancePipeline.issuanceRecord_of_mint hminted
  obtain rfl : row = issuance := by simpa [hrow] using hissuance
  exact Every.bind (k := IssuedCredentialRepository.record job.moment.insertFails row)
    ⟨⟨hjti, trivial⟩, fun _ => trivial⟩ fun _ => trivial

end Job

namespace Server

variable (server : Server) (job : Job)

theorem late_answerScript (form : TokenForm) (grant : Grant) (client : Option RegisteredClient) :
    job.Late (server.answerScript job.moment form grant client) := by
  refine Every.bind ?_ fun result => (job.late_issueScript server.pipeline result).bind
    fun token => every_finish _
  unfold resolveScript
  split
  · exact job.late_of_every_isRead (server.exchange.every_resolveScript job.moment form client)
  · exact every_finish _

theorem shape_verifyScript (method : ClientAuthMethod) (presented : PresentedCredential)
    (client : Option RegisteredClient) :
    job.Shape (server.verifyScript method job.moment presented client) := by
  unfold verifyScript
  split
  · refine TwoPhase.bind_early ((server.assertions.every_decodeScript _ _ client).mono
      fun _ hx => ⟨job.uses_of_isRead hx, hx⟩) fun claims => ?_
    cases claims with
    | none => exact .finish _
    | some claims =>
        cases client with
        | none => exact .finish _
        | some client =>
            refine TwoPhase.bind_early (every_finish _) fun acceptable => ?_
            cases acceptable with
            | false => exact .finish _
            | true =>
                refine TwoPhase.bind_early (every_finish _) fun row => ?_
                refine TwoPhase.bind_early (every_finish _) fun _ => ?_
                exact .middle (x := Statement.claim row) trivial fun _ => trivial
  · exact .finish _

theorem shape_authenticateScript (method : ClientAuthMethod) (presented : PresentedCredential) :
    job.Shape (server.authenticateScript job.moment presented method) := by
  refine .early (x := Statement.getClient presented.clientId) trivial trivial fun client => ?_
  refine (server.shape_verifyScript job method presented client).bind_late fun proved => ?_
  refine (every_finish _).bind fun _ => ?_
  cases client <;> trivial

/-- **A request reads the registry, claims an assertion, and then only appends.** -/
theorem shape_requestScript : job.Shape (server.requestScript job.moment job.request) := by
  refine TwoPhase.bind_early (every_finish _) fun form => TwoPhase.bind_early (every_finish _)
    fun grantType => TwoPhase.bind_early (every_finish _) fun grant =>
      TwoPhase.bind_late ?_ fun client => server.late_answerScript job form grant client
  unfold clientScript
  split
  · refine TwoPhase.bind_early (every_finish _) fun found => ?_
    exact (server.shape_authenticateScript job found.2 found.1).bind_late fun _ => trivial
  · exact .finish _

end Server

/-! ## Reduction -/

namespace Server

variable (server : Server)

/-- Requests that draw different `jti`s are reducible. -/
theorem movers : Movers server.workload SameRows registry Statement.IsRead Statement.IsLate
    Job.Uses Job.Independent where
  refl := SameRows.refl
  symm := SameRows.symm
  trans := SameRows.trans
  answer_congr x _ _ h := x.answer_congr h
  after_congr x _ _ h := x.after_congr h
  view_congr h := h.registry
  environment_congr change s t h := by
    cases change with
    | administer clients clientKeys => exact ⟨rfl, rfl, h.assertionJtis, h.issuedCredentials, h.signed⟩
    | purgeExpired now =>
        exact ⟨h.clients, h.clientKeys,
          congrArg (fun replays => ReplayTable.purgeExpired replays now) h.assertionJtis,
            h.issuedCredentials, h.signed⟩
  view_after x s := x.registry_after s
  early_after h s := Statement.after_of_isRead h s
  early_answer h _ _ hview := Statement.answer_of_isRead h hview
  shape job := server.shape_requestScript job
  independent_symm h := Ne.symm h
  late_commutes {a b x y} hindependent hx hlate hy := by
    rcases x.shape_cases with hread | ⟨row, rfl⟩ | ⟨minted, rfl⟩ | ⟨insertFails, issuance, rfl⟩
    · exact Statement.commutes_of_isRead hread (y.registry_after ·)
    · cases hlate
    · exact Statement.commutes_sign minted y
    · apply Statement.commutes_record
      rintro fails other rfl
      change issuance.jti = a.moment.jti at hx
      change other.jti = b.moment.jti at hy
      rw [hx, hy]
      exact Ne.symm hindependent
  late_answer {a b x y} hindependent hx hlate hy s := by
    refine Statement.answer_after_of_isLate hlate ?_ s
    rintro fails other fails' other' rfl rfl
    change other.jti = a.moment.jti at hx
    change other'.jti = b.moment.jti at hy
    rw [hx, hy]
    exact hindependent

/-- Purging the replay table disturbs no request past its claim. -/
theorem quiet_purgeExpired (now : ℚ) :
    Quiet server.workload SameRows registry Statement.IsLate (.purgeExpired now) where
  view _ := rfl
  commutes _ hlate := Statement.commutes_purgeExpired hlate now

end Server

end AgentOAuth
