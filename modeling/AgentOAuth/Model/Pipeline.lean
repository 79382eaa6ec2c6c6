import AgentOAuth.Model.ClientAuth
import AgentOAuth.Model.Grants

/-!
# The issuance pipeline

`src/services/pipeline.py`.  Steps 2 to 5 of every grant, the only call to the
minter, and the row that is written before a token leaves.

`issue_eq_ok` says what a run that returns has done; `SignedFrom` lists the
claims it signed.
-/

namespace AgentOAuth

open Effect

/-- `IssuedToken`. -/
structure IssuedToken where
  accessToken : String
  expiresIn : ℤ
  scope : String
  issuedTokenType : Option String

/-- `IssuancePipeline(settings, minter, issued)`; the ledger is part of the state. -/
structure IssuancePipeline where
  settings : Settings
  minter : TokenMinter
  interpreter : Interpreter

/-- `value or default`, for strings. -/
def orDefault (value : Option String) (default : String) : String :=
  match value with
  | some text => if text = "" then default else text
  | none => default

namespace IssuancePipeline

/-- `_resolve_identity(result)`. -/
def resolveIdentity (result : GrantResult) : String := result.subject

/-- `_check_identity_is_usable(result)`. -/
def checkIdentityIsUsable (result : GrantResult) : Except Exc Unit :=
  raiseIf (result.principalStatus ≠ .active) authenticationFailed

/-- `_resolve_policy(result)`. -/
def resolvePolicy (result : GrantResult) : List (Finset String) := result.ceilings

/-- The `claims` dictionary of `issue`. -/
def claims (pipeline : IssuancePipeline) (result : GrantResult) (subject scope : String) : Dict :=
  let base : Dict := [
    ("sub", .str subject),
    ("aud", .str (orDefault result.audience pipeline.settings.resourceAudience)),
    ("client_id", .str result.clientId),
    (DEPTH_CLAIM, .int result.delegationDepth)]
  let withScope := base.setSome "scope" (if scope = "" then none else some (.str scope))
  let withAct := withScope.setSome ACT_CLAIM (result.act.map .dict)
  let withTask := withAct.setSome TASK_CLAIM (result.taskId.map .str)
  let withTenant := withTask.setSome TENANT_CLAIM (result.tenant.map .str)
  Dict.update withTenant result.extraClaims

/-- The `IssuanceRecord` of `issue`. -/
def issuanceRecord (pipeline : IssuancePipeline) (result : GrantResult) (subject scope : String)
    (claims : Dict) (minted : MintedToken) : Except Exc IssuanceRecord := do
  let jti ← (Dict.get minted.claims "jti").text
  let issuedAt ← (Dict.get minted.claims "iat").instant
  let expiresAt ← (Dict.get minted.claims "exp").instant
  pure {
    jti
    clientId := result.clientId
    subject
    audience := pipeline.interpreter.str (Dict.get claims "aud")
    scope
    issuedAt
    expiresAt
    rootSubject := orDefault result.actRoot subject
    taskId := result.taskId
    delegationDepth := result.delegationDepth }

/-- The signing key was applied. -/
def noteSigned (minted : MintedToken) : ServerM Unit :=
  atomically fun state =>
    .ok ((), { state with signed := (minted.token, signedPayload minted.claims) :: state.signed })

/-- `issue(result)`. -/
def issue (pipeline : IssuancePipeline) (moment : Moment) (result : GrantResult) :
    ServerM IssuedToken := do
  let subject := resolveIdentity result
  -- the grant reports the status; a grant that does not leaves it at `active`
  lift (checkIdentityIsUsable result)
  let ceilings := resolvePolicy result
  let grantedScopes ← lift (attenuate result.requestedScopes ceilings)
  let scope := joinSpaces grantedScopes
  let claims := pipeline.claims result subject scope
  let minted ← lift (pipeline.minter.mint moment.minted moment.jti claims none result.maxExpiresAt)
  noteSigned minted
  -- the row is committed before the token is returned
  let issuance ← lift (pipeline.issuanceRecord result subject scope claims minted)
  recordIssuance moment.insertFails issuance
  pure {
    accessToken := minted.token
    expiresIn := minted.expiresIn
    scope
    issuedTokenType := result.issuedTokenType }

/-! ## What a run that returns has done -/

/-- What `issue` computes on its way. -/
structure Issuance where
  grantedScopes : List String
  minted : MintedToken
  row : IssuanceRecord

/-- The `scope` claim. -/
def Issuance.scope (y : Issuance) : String := joinSpaces y.grantedScopes

/-- Every step of `issue` that comes before the insert passes. -/
structure Prepared (pipeline : IssuancePipeline) (moment : Moment) (result : GrantResult)
    (y : Issuance) : Prop where
  usable : result.principalStatus = .active
  granted : attenuate result.requestedScopes result.ceilings = .ok y.grantedScopes
  minted : pipeline.minter.mint moment.minted moment.jti
    (pipeline.claims result result.subject y.scope) none result.maxExpiresAt = .ok y.minted
  row : pipeline.issuanceRecord result result.subject y.scope
    (pipeline.claims result result.subject y.scope) y.minted = .ok y.row

/-- The token that `issue` returns. -/
def Issuance.token (y : Issuance) (result : GrantResult) : IssuedToken where
  accessToken := y.minted.token
  expiresIn := y.minted.expiresIn
  scope := y.scope
  issuedTokenType := result.issuedTokenType

/-- The state after the token was signed. -/
def Issuance.sign (y : Issuance) (s : ServerState) : ServerState :=
  { s with signed := (y.minted.token, signedPayload y.minted.claims) :: s.signed }

variable {pipeline : IssuancePipeline} {moment : Moment} {result : GrantResult}
  {s t : ServerState} {token : IssuedToken} {y : Issuance}

/-- `issue` returns exactly when everything before the insert passes and the
insert does, and then it has signed one token and written one row. -/
theorem issue_eq_ok :
    (pipeline.issue moment result).run s = .ok token t ↔
      ∃ y written, Prepared pipeline moment result y ∧
        s.issuedCredentials.record moment.insertFails y.row = .ok written ∧
          token = y.token result ∧ t = { y.sign s with issuedCredentials := written } := by
  simp only [issue, run_bind_eq_ok, run_lift_eq_ok, checkIdentityIsUsable, raiseIf_eq_ok, ne_eq,
    not_not, noteSigned, recordIssuance, run_atomically_eq_ok, bind_eq_ok, pure_eq_ok,
    EStateM.run_pure, EStateM.Result.ok.injEq, Except.ok.injEq, Prod.mk.injEq]
  constructor
  · rintro ⟨_, _, ⟨husable, rfl⟩, granted, _, ⟨hgranted, rfl⟩, minted, _, ⟨hminted, rfl⟩, _, _,
      ⟨_, rfl⟩, row, _, ⟨hrow, rfl⟩, _, _, ⟨written, hwritten, _, rfl⟩, rfl, rfl⟩
    exact ⟨⟨granted, minted, row⟩, written, ⟨husable, hgranted, hminted, hrow⟩, hwritten, rfl, rfl⟩
  · rintro ⟨y, written, hy, hwritten, rfl, rfl⟩
    exact ⟨(), s, ⟨hy.usable, rfl⟩, y.grantedScopes, s, ⟨hy.granted, rfl⟩, y.minted, s,
      ⟨hy.minted, rfl⟩, (), y.sign s, ⟨trivial, rfl⟩, y.row, y.sign s, ⟨hy.row, rfl⟩, (), _,
      ⟨written, hwritten, trivial, rfl⟩, rfl, rfl⟩

/-! ## The claims that are signed -/

/-- The claims of a token issued for `result`, as its signature covers them. -/
structure SignedFrom (pipeline : IssuancePipeline) (moment : Moment) (result : GrantResult)
    (scope : String) (payload : Dict) : Prop where
  iss : Dict.get payload "iss" = .str pipeline.minter.issuer
  sub : Dict.get payload "sub" = .str result.subject
  aud : Dict.get payload "aud" =
    .str (orDefault result.audience pipeline.settings.resourceAudience)
  clientId : Dict.get payload "client_id" = .str result.clientId
  depth : Dict.get payload DEPTH_CLAIM = .int result.delegationDepth
  scope : Dict.get payload "scope" = if scope = "" then .null else .str scope
  act : Dict.get payload ACT_CLAIM = (result.act.map Value.dict).getD .null
  task : Dict.get payload TASK_CLAIM = (result.taskId.map Value.str).getD .null
  tenant : Dict.get payload TENANT_CLAIM = (result.tenant.map Value.str).getD .null
  mayAct : Dict.get payload MAY_ACT_CLAIM = .null
  jti : Dict.get payload "jti" = .str moment.jti
  iat : Dict.get payload "iat" = .int ⌊moment.minted⌋
  exp : Dict.get payload "exp" =
    .int ⌊pipeline.minter.expiresAt moment.minted none result.maxExpiresAt⌋

/-- The extra claims are written over those that were decided. -/
theorem claims_eq_update (pipeline : IssuancePipeline) (result : GrantResult)
    (subject scope : String) :
    pipeline.claims result subject scope =
      Dict.update (pipeline.claims { result with extraClaims := [] } subject scope)
        result.extraClaims := rfl

theorem nodup_keys_claims (pipeline : IssuancePipeline) (result : GrantResult)
    (subject scope : String) : (Dict.keys (pipeline.claims result subject scope)).Nodup := by
  refine Dict.nodup_keys_update (Dict.nodup_keys_setSome (Dict.nodup_keys_setSome
    (Dict.nodup_keys_setSome (Dict.nodup_keys_setSome ?_ _ _) _ _) _ _) _ _) _
  simp [Dict.keys, DEPTH_CLAIM]

/-- What the minter signs for a result without extra claims. -/
theorem Prepared.signed (h : Prepared pipeline moment result y) (hextra : result.extraClaims = []) :
    SignedFrom pipeline moment result y.scope (signedPayload y.minted.claims) := by
  have hget := TokenMinter.get_of_mint h.minted (nodup_keys_claims _ _ _ _)
  constructor <;> rw [get_signedPayload, hget] <;>
    simp [claims, hextra, Dict.update, DEPTH_CLAIM, ACT_CLAIM, TASK_CLAIM, TENANT_CLAIM,
      MAY_ACT_CLAIM]
  case scope => by_cases hscope : y.scope = "" <;> simp [hscope]
  case act => cases result.act <;> rfl
  case task => cases result.taskId <;> rfl
  case tenant => cases result.tenant <;> rfl
  all_goals simp [numericDate]

/-- The row that is written: only its audience is read from the claims. -/
theorem Prepared.row_eq_of_claims (h : Prepared pipeline moment result y) :
    y.row = {
      jti := moment.jti
      clientId := result.clientId
      subject := result.subject
      audience := pipeline.interpreter.str
        (Dict.get (pipeline.claims result result.subject y.scope) "aud")
      scope := y.scope
      issuedAt := moment.minted
      expiresAt := pipeline.minter.expiresAt moment.minted none result.maxExpiresAt
      rootSubject := orDefault result.actRoot result.subject
      taskId := result.taskId
      delegationDepth := result.delegationDepth } := by
  have hget := TokenMinter.get_of_mint h.minted (nodup_keys_claims _ _ _ _)
  have hrow := h.row
  simp only [issuanceRecord, hget, bind_eq_ok, pure_eq_ok, Value.text_eq_ok,
    Value.instant_eq_ok] at hrow
  obtain ⟨jti, hjti, issuedAt, hiat, expiresAt, hexp, hrow⟩ := hrow
  simp only [if_true, String.reduceEq, if_false, Value.str.injEq, Value.datetime.injEq] at hjti hiat hexp
  rw [← hrow, ← hjti, ← hexp, ← hiat]

/-- The row that is written for a result without extra claims. -/
theorem Prepared.row_eq (h : Prepared pipeline moment result y) (hextra : result.extraClaims = []) :
    y.row = {
      jti := moment.jti
      clientId := result.clientId
      subject := result.subject
      audience := orDefault result.audience pipeline.settings.resourceAudience
      scope := y.scope
      issuedAt := moment.minted
      expiresAt := pipeline.minter.expiresAt moment.minted none result.maxExpiresAt
      rootSubject := orDefault result.actRoot result.subject
      taskId := result.taskId
      delegationDepth := result.delegationDepth } := by
  have haud : Dict.get (pipeline.claims result result.subject y.scope) "aud" =
      .str (orDefault result.audience pipeline.settings.resourceAudience) := by
    simp [claims, hextra, Dict.update, ACT_CLAIM, TASK_CLAIM, TENANT_CLAIM]
  rw [h.row_eq_of_claims, haud, pipeline.interpreter.str_str]

/-- Without extra claims the pipeline sets none of the minter's. -/
theorem owned_notMem_claims (hextra : result.extraClaims = []) (subject scope : String) :
    ∀ name ∈ MINTER_OWNED_CLAIMS, name ∉ Dict.keys (pipeline.claims result subject scope) := by
  intro name hname hmem
  simp only [claims, hextra, Dict.update, List.foldl_nil] at hmem
  -- one case for each optional claim, and the four that are always there
  have hkeys : name ∈ [TENANT_CLAIM, TASK_CLAIM, ACT_CLAIM, "scope", "sub", "aud", "client_id",
      DEPTH_CLAIM] := by
    rcases Dict.mem_keys_setSome hmem with rfl | hmem
    · simp
    rcases Dict.mem_keys_setSome hmem with rfl | hmem
    · simp
    rcases Dict.mem_keys_setSome hmem with rfl | hmem
    · simp
    rcases Dict.mem_keys_setSome hmem with rfl | hmem
    · simp
    · simp only [Dict.keys, List.map_cons, List.map_nil] at hmem
      exact List.mem_append_right [TENANT_CLAIM, TASK_CLAIM, ACT_CLAIM, "scope"] hmem
  have hdisjoint : ∀ name ∈ MINTER_OWNED_CLAIMS, name ∉ [TENANT_CLAIM, TASK_CLAIM, ACT_CLAIM,
      "scope", "sub", "aud", "client_id", DEPTH_CLAIM] := by
    decide
  exact hdisjoint name hname hkeys

/-- The row of a minted token can always be built. -/
theorem issuanceRecord_of_mint {subject scope : String} {minted : MintedToken}
    (h : pipeline.minter.mint moment.minted moment.jti (pipeline.claims result subject scope) none
      result.maxExpiresAt = .ok minted) :
    ∃ row, pipeline.issuanceRecord result subject scope (pipeline.claims result subject scope)
      minted = .ok row ∧ row.jti = moment.jti := by
  have hget := TokenMinter.get_of_mint h (nodup_keys_claims _ _ _ _)
  rw [issuanceRecord, hget "jti", hget "iat", hget "exp"]
  exact ⟨_, rfl, rfl⟩

/-- **When `issue` gets as far as the insert.** -/
theorem exists_prepared_iff (hextra : result.extraClaims = []) :
    (∃ y, Prepared pipeline moment result y) ↔
      result.principalStatus = .active ∧
      (result.requestedScopes = [] ∨ allowedBy result.ceilings result.requestedScopes ≠ []) ∧
      1 ≤ pipeline.minter.expiresAt moment.minted none result.maxExpiresAt - moment.minted ∧
      ∃ token, pipeline.minter.encode (pipeline.minter.fullClaims moment.minted moment.jti
        (pipeline.claims result result.subject
          (joinSpaces (allowedBy result.ceilings result.requestedScopes)))
        none result.maxExpiresAt) = .ok token := by
  constructor
  · rintro ⟨y, hy⟩
    obtain ⟨hgranted, hleft⟩ := attenuate_eq_ok.mp hy.granted
    obtain ⟨_, halive, token, htoken, _⟩ := TokenMinter.mint_eq_ok.mp hy.minted
    rw [Issuance.scope, hgranted] at htoken
    exact ⟨hy.usable, hgranted ▸ hleft, halive, token, htoken⟩
  · rintro ⟨hactive, hleft, halive, token, htoken⟩
    have hminted := TokenMinter.mint_eq_ok.mpr
      ⟨owned_notMem_claims hextra result.subject _, halive, token, htoken, rfl⟩
    obtain ⟨row, hrow, _⟩ := issuanceRecord_of_mint hminted
    exact ⟨⟨_, _, row⟩, hactive, attenuate_eq_ok.mpr ⟨rfl, hleft⟩, hminted, hrow⟩

/-- Issuing signs and records; it touches nothing else. -/
theorem keeps_issue :
    Keeps (fun s : ServerState => (s.clients, s.clientKeys, s.assertionJtis))
      (pipeline.issue moment result) := by
  refine (keeps_lift _).bind fun _ => (keeps_lift _).bind fun _ => (keeps_lift _).bind fun _ =>
    (keeps_atomically ?_).bind fun _ => (keeps_lift _).bind fun _ => (keeps_atomically ?_).bind
      fun _ => keeps_pure _
  · rintro s ⟨⟩ t h
    simp only [Except.ok.injEq, Prod.mk.injEq, true_and] at h
    rw [← h]
  · rintro s ⟨⟩ t h
    simp only [bind_eq_ok, pure_eq_ok, Prod.mk.injEq, true_and] at h
    obtain ⟨_, _, rfl⟩ := h
    rfl

theorem raises_issuanceRecord {subject scope : String} {claims : Dict} {minted : MintedToken} :
    Raises (fun e => e.error? = none)
      (pipeline.issuanceRecord result subject scope claims minted) :=
  (Value.python_text _).bind fun _ => (Value.python_instant _).bind fun _ =>
    (Value.python_instant _).bind fun _ => raises_pure _

theorem raises_record {credentials : IssuedCredentialTable} {insertFails : Bool}
    {issuance : IssuanceRecord} :
    Raises (fun e => e.error? = none) (credentials.record insertFails issuance) := by
  intro e he
  unfold IssuedCredentialTable.record at he
  split at he
  · cases he
    rfl
  · split at he <;> cases he
    rfl

/-- **How `issue` is refused**: for the status, for the scope, or with an
exception that is no `OAuthError`; the issued credentials stay as they are. -/
theorem issue_error {e : Exc} (h : (pipeline.issue moment result).run s = .error e t) :
    t.issuedCredentials = s.issuedCredentials ∧
      (checkIdentityIsUsable result = .error e ∨
        result.principalStatus = .active ∧
          attenuate result.requestedScopes result.ceilings = .error e ∨
        e.error? = none) := by
  simp only [issue, run_bind_eq_error, run_lift_eq_error, run_lift_eq_ok, noteSigned,
    recordIssuance, run_atomically_eq_ok, run_atomically_eq_error, EStateM.run_pure, reduceCtorEq,
    false_and, false_or, or_false, and_false, exists_const, exists_false, Except.ok.injEq,
    Prod.mk.injEq, bind_eq_error] at h
  rcases h with ⟨hstatus, rfl⟩ | ⟨_, _, ⟨hstatus, rfl⟩, h⟩
  · exact ⟨rfl, .inl hstatus⟩
  rcases h with ⟨hattenuate, rfl⟩ | ⟨_, _, ⟨_, rfl⟩, h⟩
  · simp only [checkIdentityIsUsable, raiseIf_eq_ok, ne_eq, not_not] at hstatus
    exact ⟨rfl, .inr (.inl ⟨hstatus, hattenuate⟩)⟩
  rcases h with ⟨hmint, rfl⟩ | ⟨_, _, ⟨_, rfl⟩, _, ⟨_, rfl⟩, h⟩
  · exact ⟨rfl, .inr (.inr (TokenMinter.raises_mint e hmint))⟩
  rcases h with ⟨hrow, rfl⟩ | ⟨_, _, ⟨_, rfl⟩, hrecord | ⟨_, _, hnever⟩, rfl⟩
  · exact ⟨rfl, .inr (.inr (raises_issuanceRecord e hrow))⟩
  · exact ⟨rfl, .inr (.inr (raises_record e hrecord))⟩
  · cases hnever

/-- The pipeline refuses for the scope exactly when the request is not empty
and nothing of it is left under the ceilings. -/
theorem issue_invalid_scope :
    (∃ e t, (pipeline.issue moment result).run s = .error e t ∧ e.error? = some "invalid_scope") ↔
      result.principalStatus = .active ∧ result.requestedScopes ≠ [] ∧
        allowedBy result.ceilings result.requestedScopes = [] := by
  constructor
  · rintro ⟨e, t, h, hscope⟩
    rcases (issue_error h).2 with hstatus | ⟨hactive, hattenuate⟩ | hnone
    · simp only [checkIdentityIsUsable, raiseIf_eq_error] at hstatus
      simp [← hstatus.2, authenticationFailed] at hscope
    · exact ⟨hactive, (attenuate_eq_error.mp hattenuate).2⟩
    · simp [hnone] at hscope
  · rintro ⟨hactive, hrequested, hallowed⟩
    refine ⟨noScopeAllowed, s, ?_, rfl⟩
    have husable : checkIdentityIsUsable result = .ok () := raiseIf_eq_ok.mpr (by simpa using hactive)
    have hattenuate := attenuate_eq_error.mpr ⟨rfl, hrequested, hallowed⟩
    rw [issue, run_lift_bind_of_ok husable, run_bind_eq_error]
    exact .inl (run_lift_eq_error.mpr ⟨hattenuate, rfl⟩)

end IssuancePipeline

end AgentOAuth
