import AgentOAuth.Model.TokenBook

/-!
# Grants with claims of their own

The pipeline writes the `extra_claims` of a grant over the claims it has
decided, as the last step before the minter.  The minter refuses the four
claims it owns; nothing refuses the others.  So what a grant may put there
decides whether the shared steps hold: they do exactly when no extra claim
says anything else about a decided one (`extra_claims_exact`).
-/

namespace AgentOAuth

open Effect

/-- The row says what the claims say. -/
structure Describes (row : IssuanceRecord) (claims : Dict) : Prop where
  jti : Dict.get claims "jti" = .str row.jti
  clientId : Dict.get claims "client_id" = .str row.clientId
  subject : Dict.get claims "sub" = .str row.subject
  audience : Dict.get claims "aud" = .str row.audience
  scope : Dict.get claims "scope" = if row.scope = "" then .null else .str row.scope
  taskId : Dict.get claims TASK_CLAIM = (row.taskId.map Value.str).getD .null
  delegationDepth : Dict.get claims DEPTH_CLAIM = .int row.delegationDepth
  issuedAt : Dict.get claims "iat" = .int ⌊row.issuedAt⌋
  expiresAt : Dict.get claims "exp" = .int ⌊row.expiresAt⌋

namespace IssuancePipeline

/-- The claims that steps 2 to 5 decide from the fields of a result; `none` for
one that is left out. -/
def decided (pipeline : IssuancePipeline) (result : GrantResult) (scope : String) :
    List (String × Option Value) := [
  ("sub", some (.str result.subject)),
  ("aud", some (.str (orDefault result.audience pipeline.settings.resourceAudience))),
  ("client_id", some (.str result.clientId)),
  (DEPTH_CLAIM, some (.int result.delegationDepth)),
  ("scope", if scope = "" then none else some (.str scope)),
  (ACT_CLAIM, result.act.map .dict),
  (TASK_CLAIM, result.taskId.map .str),
  (TENANT_CLAIM, result.tenant.map .str)]

/-- No extra claim says anything else about a decided one. -/
def ExtrasAgree (pipeline : IssuancePipeline) (result : GrantResult) (scope : String) : Prop :=
  ∀ entry ∈ pipeline.decided result scope, ∀ v, result.extraClaims.lookup entry.1 = some v →
    entry.2 = some v

variable {pipeline : IssuancePipeline} {moment : Moment} {result : GrantResult}
  {s t : ServerState} {token : IssuedToken} {y : Issuance} {scope : String}

/-- Without extra claims the dictionary is what was decided. -/
theorem lookup_claims_of_nil (subject : String) {entry : String × Option Value}
    (hsubject : subject = result.subject) (h : entry ∈ pipeline.decided result scope) :
    List.lookup entry.1 (pipeline.claims { result with extraClaims := [] } subject scope) =
      entry.2 := by
  have hset : ∀ (d : Dict) (name other : String) (value : Option Value),
      List.lookup other (Dict.setSome d name value) =
        if other = name then value.or (List.lookup other d) else List.lookup other d := by
    intro d name other value
    cases value with
    | none => simp [Dict.setSome]
    | some value => simp [Dict.setSome, Dict.lookup_set]
  simp only [decided, List.mem_cons, List.not_mem_nil, or_false] at h
  simp only [claims, Dict.update, List.foldl_nil, hset]
  rcases h with rfl | rfl | rfl | rfl | rfl | rfl | rfl | rfl <;>
    simp [Dict.lookup_cons, hsubject, DEPTH_CLAIM, ACT_CLAIM, TASK_CLAIM, TENANT_CLAIM]

/-- None of the decided claims is the minter's, and none is a date. -/
theorem decided_names {entry : String × Option Value} (h : entry ∈ pipeline.decided result scope) :
    entry.1 ∉ MINTER_OWNED_CLAIMS ∧ entry.1 ∉ ["exp", "iat", "nbf"] := by
  have hname : entry.1 ∈ (pipeline.decided result scope).map Prod.fst := List.mem_map_of_mem h
  have hall : ∀ name ∈ ["sub", "aud", "client_id", DEPTH_CLAIM, "scope", ACT_CLAIM, TASK_CLAIM,
      TENANT_CLAIM], name ∉ MINTER_OWNED_CLAIMS ∧ name ∉ ["exp", "iat", "nbf"] := by
    decide
  exact hall entry.1 hname

/-- **What is signed for a decided claim**: the extra claim, if there is one. -/
theorem Prepared.lookup_signed (h : Prepared pipeline moment result y)
    (hextra : (Dict.keys result.extraClaims).Nodup) {entry : String × Option Value}
    (hentry : entry ∈ pipeline.decided result y.scope) :
    List.lookup entry.1 (signedPayload y.minted.claims) =
      (List.lookup entry.1 result.extraClaims).or entry.2 := by
  obtain ⟨hname, hdate⟩ := decided_names hentry
  have hid : numericDate entry.1 = id := funext fun v => numericDate_of_notMem hdate v
  rw [lookup_signedPayload, TokenMinter.lookup_of_mint h.minted (nodup_keys_claims _ _ _ _) hname,
    claims_eq_update, Dict.lookup_update hextra, lookup_claims_of_nil _ rfl hentry, hid,
    Option.map_id_fun, id_eq]

/-- When the extra claims agree, every decided claim is signed as decided. -/
theorem ExtrasAgree.signed (hagree : ExtrasAgree pipeline result y.scope)
    (h : Prepared pipeline moment result y) (hextra : (Dict.keys result.extraClaims).Nodup)
    {entry : String × Option Value} (hentry : entry ∈ pipeline.decided result y.scope) :
    List.lookup entry.1 (signedPayload y.minted.claims) = entry.2 := by
  rw [h.lookup_signed hextra hentry]
  cases hlookup : List.lookup entry.1 result.extraClaims with
  | none => rfl
  | some v => exact (hagree entry hentry v hlookup).symm

/-- When the decided claims are signed, the row describes what is signed. -/
theorem Prepared.describes (h : Prepared pipeline moment result y)
    (hsigned : ∀ entry ∈ pipeline.decided result y.scope,
      List.lookup entry.1 (signedPayload y.minted.claims) = entry.2) :
    Describes y.row (signedPayload y.minted.claims) := by
  have hget : ∀ entry ∈ pipeline.decided result y.scope,
      Dict.get (signedPayload y.minted.claims) entry.1 = entry.2.getD .null := by
    intro entry hentry
    rw [Dict.get, hsigned entry hentry]
  have hown := TokenMinter.get_of_mint h.minted (nodup_keys_claims _ _ _ _)
  -- the audience of the row is read from the claims that were passed to the minter
  have haud : Dict.get (pipeline.claims result result.subject y.scope) "aud" =
      .str (orDefault result.audience pipeline.settings.resourceAudience) := by
    have h := hget ("aud", some (.str (orDefault result.audience pipeline.settings.resourceAudience)))
      (by simp [decided])
    rw [get_signedPayload, hown] at h
    simpa [numericDate_of_notMem] using h
  have hrow := h.row_eq_of_claims
  rw [haud, pipeline.interpreter.str_str] at hrow
  rw [hrow]
  refine ⟨?_, hget ("client_id", some (.str result.clientId)) (by simp [decided]),
    hget ("sub", some (.str result.subject)) (by simp [decided]),
    hget ("aud", some (.str _)) (by simp [decided]), ?_,
    hget (TASK_CLAIM, result.taskId.map .str) (by simp [decided]),
    hget (DEPTH_CLAIM, some (.int result.delegationDepth)) (by simp [decided]), ?_, ?_⟩
  · simp [get_signedPayload, hown]
  · rw [hget ("scope", if y.scope = "" then none else some (.str y.scope)) (by simp [decided])]
    split <;> rfl
  · simp [get_signedPayload, hown, numericDate]
  · simp [get_signedPayload, hown, numericDate]

end IssuancePipeline

/-! ## A grant that names the subject twice -/

namespace Example.Deep

/-- The result of a grant whose extra claims name `root`. -/
def naming (subject : String) : GrantResult where
  subject
  clientId := "r"
  requestedScopes := ["x"]
  ceilings := [{"x"}]
  taskId := some "task r0"
  tenant := some "blue"
  extraClaims := [("sub", .str "root")]

def issueNaming (subject : String) : EStateM.Result Exc ServerState IssuedToken :=
  (server.pipeline.issue (momentOf 1000 "r0") (naming subject)).run {}

theorem issued_naming (subject : String) (hsubject : subject ∈ ["root", "nobody"]) :
    (Effect.value? (issueNaming subject)).map IssuedToken.accessToken = some "r0" := by
  revert subject
  decide +kernel

end Example.Deep

namespace IssuancePipeline

variable {pipeline : IssuancePipeline} {moment : Moment} {result : GrantResult}
  {s t : ServerState} {token : IssuedToken}

/-- **When a grant cannot bypass the shared steps.**  For every result on which
`issue` returns, the signed claims are the decided ones and the row describes
them exactly when no extra claim says anything else about a decided one. -/
theorem extra_claims_exact (hextra : (Dict.keys result.extraClaims).Nodup)
    (h : (pipeline.issue moment result).run s = .ok token t) :
    ∃ granted payload row, attenuate result.requestedScopes result.ceilings = .ok granted ∧
      t.signed = (token.accessToken, payload) :: s.signed ∧
      t.issuedCredentials.rows = row :: s.issuedCredentials.rows ∧
      ((∀ entry ∈ pipeline.decided result (joinSpaces granted), payload.lookup entry.1 = entry.2) ∧
        Describes row payload ↔ ExtrasAgree pipeline result (joinSpaces granted)) := by
  obtain ⟨y, written, hy, hwritten, rfl, rfl⟩ := issue_eq_ok.mp h
  have hrows : written.rows = y.row :: s.issuedCredentials.rows :=
    (Table.insert_eq_some.mp (IssuedCredentialTable.record_eq_ok.mp hwritten).2).2
  refine ⟨y.grantedScopes, signedPayload y.minted.claims, y.row, hy.granted, rfl, hrows, ?_⟩
  constructor
  · rintro ⟨hsigned, _⟩ entry hentry v hv
    rw [← hsigned entry hentry, hy.lookup_signed hextra hentry, hv, Option.some_or]
  · intro hagree
    have hsigned : ∀ entry ∈ pipeline.decided result y.scope,
        List.lookup entry.1 (signedPayload y.minted.claims) = entry.2 :=
      fun entry hentry => hagree.signed hy hextra hentry
    exact ⟨hsigned, hy.describes hsigned⟩

/-- The extra claim agrees with the subject of the result. -/
theorem extra_claims_exact_root :
    ∃ token t payload row, Example.Deep.issueNaming "root" = .ok token t ∧
      t.signed = [(token.accessToken, payload)] ∧ t.issuedCredentials.rows = [row] ∧
      Describes row payload := by
  obtain ⟨token, hvalue, _⟩ := Option.map_eq_some_iff.mp (Example.Deep.issued_naming "root" (by simp))
  obtain ⟨t, hrun⟩ := value?_eq_some.mp hvalue
  obtain ⟨granted, payload, row, hgranted, hsigned, hrows, hexact⟩ :=
    extra_claims_exact (by simp [Example.Deep.naming, Dict.keys]) hrun
  refine ⟨token, t, payload, row, hrun, hsigned, hrows, (hexact.mpr ?_).2⟩
  simp [ExtrasAgree, decided, Example.Deep.naming, Dict.lookup_cons, DEPTH_CLAIM, ACT_CLAIM,
    TASK_CLAIM, TENANT_CLAIM]

/-- The token of `nobody` is signed for `root`. -/
theorem extra_claims_replace :
    ¬ ∀ (pipeline : IssuancePipeline) (moment : Moment) (result : GrantResult) (s t : ServerState)
      (token : IssuedToken), (Dict.keys result.extraClaims).Nodup →
        (pipeline.issue moment result).run s = .ok token t →
          ∀ payload, (token.accessToken, payload) ∈ t.signed →
            payload.lookup "sub" = some (.str result.subject) := by
  intro hclaim
  obtain ⟨token, hvalue, htoken⟩ :=
    Option.map_eq_some_iff.mp (Example.Deep.issued_naming "nobody" (by simp))
  obtain ⟨t, hrun⟩ := value?_eq_some.mp hvalue
  have hsigned : (Effect.finalState (Example.Deep.issueNaming "nobody")).signed =
      [("r0", Example.Deep.r0.payload)] := by
    decide +kernel
  rw [hrun, Effect.finalState_ok] at hsigned
  have hsub := hclaim _ _ _ _ _ _ (by simp [Example.Deep.naming, Dict.keys]) hrun
    Example.Deep.r0.payload (by rw [hsigned, htoken]; exact List.mem_singleton_self _)
  exact absurd hsub (by decide +kernel)

end IssuancePipeline

end AgentOAuth
