import AgentOAuth.Proofs.Serializable

/-!
# Nothing is handed out before it is written down

Here nothing is asked of the environment: administrators change the registry in
the middle of requests, `jti`s collide, tokens are forged, requests crash
between any two statements.  A request that was answered with a token still has
its row in the ledger, and two answered requests never share one.
-/

namespace AgentOAuth

open Effect Script Workloads

/-- The row and the response say of a token what its claims say.  The root of
the chain is left out: the row has it from the token that was exchanged. -/
structure Backed (server : Server) (response : TokenResponse) (row : IssuanceRecord) (claims : Dict) :
    Prop where
  decoded : server.jwt.decodeUnverified response.accessToken = .ok claims
  jti : Dict.get claims "jti" = .str row.jti
  clientId : Dict.get claims "client_id" = .str row.clientId
  subject : Dict.get claims "sub" = .str row.subject
  audience : Dict.get claims "aud" = .str row.audience
  scope : Dict.get claims "scope" = if row.scope = "" then .null else .str row.scope
  taskId : Dict.get claims TASK_CLAIM = (row.taskId.map Value.str).getD .null
  delegationDepth : Dict.get claims DEPTH_CLAIM = .int row.delegationDepth
  issuedAt : Dict.get claims "iat" = .int ⌊row.issuedAt⌋
  expiresAt : Dict.get claims "exp" = .int ⌊row.expiresAt⌋
  replyScope : response.scope = if row.scope = "" then none else some row.scope

namespace Server

variable {server : Server}

/-- The ledger holds the row of the job's token. -/
def Booked (server : Server) (job : Job) (response : TokenResponse) (s : ServerState) : Prop :=
  ∃ row ∈ s.issuedCredentials, row.jti = job.moment.jti ∧ ∃ claims, Backed server response row claims

/-- The ledger only grows. -/
def LedgerGrows (s t : ServerState) : Prop := ∀ row ∈ s.issuedCredentials, row ∈ t.issuedCredentials

/-- The insert of the job's row. -/
def RecordsOwn (job : Job) (x : Statement) : Prop :=
  ∃ insertFails row, x = .record insertFails row ∧ row.jti = job.moment.jti

/-! ## One request -/

/-- The extra claims of a grant are empty, whatever the registry is like when
the grant reads it. -/
theorem secures_resolveScript (server : Server) (job : Job) (grant : Grant) (form : TokenForm)
    (client : Option RegisteredClient) (s : ServerState) :
    Secures Statement.exec LedgerGrows (fun result _ => result.extraClaims = [])
      (server.resolveScript grant job.moment form client) s := by
  unfold resolveScript
  split
  · refine secures_finish_bind fun _ _ => secures_finish_bind fun _ _ =>
      secures_finish_bind fun _ _ => secures_finish_bind fun _ _ => secures_finish_bind fun _ _ =>
        secures_finish_bind fun _ _ => secures_finish_bind fun actorClaims _ =>
          (secures_trivial _ s).bind fun _ t _ => ?_
    refine secures_finish_bind fun _ _ => secures_finish_bind fun _ _ =>
      secures_finish_bind fun _ _ => secures_finish_bind fun _ _ => secures_finish_bind fun _ _ =>
        secures_finish_bind fun _ _ => secures_finish_bind fun _ _ => secures_finish_bind fun _ _ =>
          secures_finish_bind fun _ _ => secures_finish_bind fun _ _ => ?_
    exact secures_finish.mpr fun result hresult => by rw [← Except.ok.inj hresult]
  · refine secures_finish.mpr fun result hresult => ?_
    obtain ⟨caller, _, hpure⟩ := bind_eq_ok.mp hresult
    rw [← pure_eq_ok.mp hpure]
    rfl

/-- What the row, the claims and the response have in common. -/
theorem backed_of_prepared {moment : Moment} {result : GrantResult}
    {y : IssuancePipeline.Issuance} (hy : server.pipeline.Prepared moment result y)
    (hextra : result.extraClaims = []) :
    Backed server (respond (y.token result)) y.row (signedPayload y.minted.claims) := by
  have hsigned := hy.signed hextra
  rw [hy.row_eq hextra]
  exact ⟨TokenMinter.decodeUnverified_of_mint hy.minted, hsigned.jti, hsigned.clientId, hsigned.sub,
    hsigned.aud, hsigned.scope, hsigned.task, hsigned.depth, hsigned.iat, hsigned.exp, rfl⟩

/-- A token is returned once its row has been inserted. -/
theorem secures_issueScript (server : Server) (job : Job) {result : GrantResult}
    (hextra : result.extraClaims = []) (s : ServerState) :
    Secures Statement.exec LedgerGrows (fun token t => server.Booked job (respond token) t)
      (server.pipeline.issueScript job.moment result) s := by
  refine secures_finish_bind fun _ husable => secures_finish_bind fun grantedScopes hgranted =>
    secures_finish_bind fun minted hminted => (secures_trivial (applyKey minted) s).bind fun _ t _ =>
      secures_finish_bind fun row hrow => ?_
  have hy : server.pipeline.Prepared job.moment result ⟨grantedScopes, minted, row⟩ := by
    refine ⟨?_, hgranted, hminted, hrow⟩
    simpa [IssuancePipeline.checkIdentityIsUsable] using husable
  intro u _ v hanswer
  change Script.answer Statement.exec (.record job.moment.insertFails row) u = .ok v at hanswer
  rw [Statement.record_answer, map_eq_ok] at hanswer
  obtain ⟨written, hwritten, _⟩ := hanswer
  have hmem : row ∈ written :=
    (Table.mem_insert (IssuedCredentialTable.record_eq_ok.mp hwritten).2).mpr (.inl rfl)
  obtain ⟨row', hrow', hjti⟩ := IssuancePipeline.issuanceRecord_of_mint hminted
  obtain rfl : row' = row := by simpa [hrow'] using hrow
  refine ⟨row', ?_, hjti, _, backed_of_prepared hy hextra⟩
  rw [Statement.record_after]
  simpa only [Statement.recorded, hwritten] using hmem

theorem secures_requestScript (server : Server) (job : Job) (s : ServerState) :
    Secures Statement.exec LedgerGrows (server.Booked job)
      (server.requestScript job.moment job.request) s := by
  refine secures_finish_bind fun form _ => secures_finish_bind fun grantType _ =>
    secures_finish_bind fun grant _ => (secures_trivial _ s).bind fun client t _ => ?_
  refine (server.secures_resolveScript job grant form client t).bind fun result u hextra => ?_
  exact (server.secures_issueScript job hextra u).bind fun token v hbooked => hbooked

theorem endsIn_requestScript (server : Server) (job : Job) :
    EndsIn (RecordsOwn job) (server.requestScript job.moment job.request) := by
  refine endsIn_finish_bind fun form _ => endsIn_finish_bind fun grantType _ =>
    endsIn_finish_bind fun grant _ => EndsIn.bind _ fun client => EndsIn.bind _ fun result => ?_
  refine EndsIn.map ?_ respond
  refine endsIn_finish_bind fun _ _ => endsIn_finish_bind fun grantedScopes _ =>
    endsIn_finish_bind fun minted hminted => EndsIn.bind (applyKey minted) fun _ =>
      endsIn_finish_bind fun row hrow => ?_
  obtain ⟨row', hrow', hjti⟩ := IssuancePipeline.issuanceRecord_of_mint hminted
  obtain rfl : row' = row := by simpa [hrow'] using hrow
  exact fun _ => .inl ⟨⟨_, row', rfl, hjti⟩, _, rfl⟩

/-! ## Any number of requests -/

theorem promise_booked (server : Server) :
    server.workload.Promise LedgerGrows (server.Booked) where
  refl _ _ hrow := hrow
  trans _ _ _ hst htu row hrow := htu row (hst row hrow)
  call _ _ _ hrow := Statement.mem_ledger_after.1 hrow
  change change s row hrow := by
    cases change with
    | administer clients clientKeys => exact hrow
    | purgeExpired now => exact hrow
  stable _ _ _ _ hst h := by
    obtain ⟨row, hrow, hrest⟩ := h
    exact ⟨row, hst row hrow, hrest⟩
  script job s := server.secures_requestScript job s

/-- A `jti` that is in the ledger is refused. -/
theorem refused_of_booked {a b : Job} {response : TokenResponse} {x : Statement} {s : ServerState}
    (hjti : a.moment.jti = b.moment.jti) (hbooked : server.Booked a response s)
    (hx : RecordsOwn b x) : ∀ v, Script.answer Statement.exec x s ≠ .ok v := by
  obtain ⟨row, hrow, hrow_jti, _⟩ := hbooked
  obtain ⟨insertFails, row', rfl, hrow'_jti⟩ := hx
  intro v hanswer
  rw [Statement.record_answer, map_eq_ok] at hanswer
  obtain ⟨written, hwritten, _⟩ := hanswer
  have hfree := (Table.insert_eq_some.mp (IssuedCredentialTable.record_eq_ok.mp hwritten).2).1
  exact Table.find_eq_none.mp hfree row hrow (by rw [hrow_jti, hjti, hrow'_jti])

variable {c : Requests}

/-- **Nothing is handed out before it is written down**, in any interleaving:
every answered request has its row in the ledger, and no two answered requests
share one. -/
theorem answered_booked (hc : server.interleaved.Reachable c) :
    (∀ i job response, c.own i = .running job (.finish (.ok response)) →
      ∃ row ∈ c.shared.issuedCredentials, row.jti = job.moment.jti ∧
        ∃ claims, Backed server response row claims) ∧
    ∀ i j, i ≠ j → ∀ a b response response', c.own i = .running a (.finish (.ok response)) →
      c.own j = .running b (.finish (.ok response')) → a.moment.jti ≠ b.moment.jti := by
  have hsymm : ∀ a b : Job, a.moment.jti = b.moment.jti → b.moment.jti = a.moment.jti :=
    fun _ _ h => h.symm
  have heverywhere := server.promise_booked.everywhere hsymm server.endsIn_requestScript
    (fun _ _ _ _ _ hjti hbooked hx => refused_of_booked hjti hbooked hx) hc
  refine ⟨fun i job response hown => ?_, fun i j hij a b response response' hi hj hjti => ?_⟩
  · have hpromise := (heverywhere.each i).1
    rw [hown] at hpromise
    exact hpromise
  · exact heverywhere.pair i j hij ⟨a, b, response, response', hi, hj, hjti⟩

theorem answered_booked_both :
    (∃ row ∈ Example.Serializable.both.shared.issuedCredentials, row.jti = "R") ∧ "R" ≠ "A" := by
  have hbooked := answered_booked (Transition.System.Reachable.of_restrict
    Example.Serializable.reachable_both)
  obtain ⟨jobR, responseR, hownR, hR, _⟩ :=
    Example.Serializable.exists_of_reply Example.Serializable.reply_both.1
  obtain ⟨jobA, responseA, hownA, hA, _⟩ :=
    Example.Serializable.exists_of_reply Example.Serializable.reply_both.2
  obtain ⟨row, hrow, hjti, _⟩ := hbooked.1 0 jobR responseR hownR
  refine ⟨⟨row, hrow, hjti.trans hR⟩, ?_⟩
  have hne := hbooked.2 0 1 (by decide) jobR jobA responseR responseA hownR hownA
  rwa [hR, hA] at hne

end Server

end AgentOAuth
