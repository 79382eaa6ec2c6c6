import AgentOAuth.Model.Forms
import AgentOAuth.Model.ResourceVerifier

/-!
# The resource server

`tests/resource_server/app.py`: `/reports` answers whoever presents a bearer
token that the verifier accepts and whose scopes have `reports:read`.
-/

namespace AgentOAuth

open Effect

/-- `HTTPException(status_code=…, detail=…, headers=…)`. -/
structure HTTPException where
  statusCode : ℕ
  detail : String
  headers : List (String × String)
  deriving DecidableEq

/-- What a route of the resource server raises. -/
inductive RouteExc
  | http (exc : HTTPException)
  /-- Any other exception, by the name of its class. -/
  | python (className : String)
  deriving DecidableEq

/-- `_unauthorized(detail)`. -/
def unauthorized (detail : String) : RouteExc :=
  .http ⟨401, detail, [("WWW-Authenticate", "Bearer error=\"invalid_token\"")]⟩

/-- `text.partition(" ")` without the separator: what comes before and after
the first space. -/
def partitionSpace (text : String) : String × String :=
  (String.ofList (text.toList.takeWhile (· ≠ ' ')),
    String.ofList ((text.toList.dropWhile (· ≠ ' ')).drop 1))

/-- The token of `Authorization: Bearer …`. -/
def bearerToken (authorization : Option String) : Except RouteExc String :=
  match authorization with
  | none => .error (unauthorized "missing bearer token")
  | some authorization =>
      let scheme := (partitionSpace authorization).1
      let token := (partitionSpace authorization).2
      if scheme ≠ "Bearer" ∨ token = "" then
        .error (unauthorized "authorization header must use the Bearer scheme")
      else .ok token

/-- `except TokenValidationError`. -/
def refuseInvalidAccessToken : ValidationExc → RouteExc
  | .tokenValidation _ => unauthorized "invalid access token"
  | .python className => .python className

/-- `_validated_claims(authorization, verifier)`. -/
def validatedClaims (verifier : AuthorizationServerVerifier) (visit : Visit) (now : ℚ)
    (authorization : Option String) : EStateM RouteExc KeyCache Dict := do
  let token ← lift (bearerToken authorization)
  (verifier.validate visit now token).adaptExcept refuseInvalidAccessToken

/-- `set(str(claims.get("scope", "")).split())`. -/
def scopesOf (interpreter : Interpreter) (claims : Dict) : Finset String :=
  (split (interpreter.str ((claims.lookup "scope").getD (.str "")))).toFinset

/-- `_require_scope(claims, required_scope)`. -/
def requireScope (interpreter : Interpreter) (claims : Dict) (requiredScope : String) :
    Except RouteExc Unit :=
  raiseIf (requiredScope ∉ scopesOf interpreter claims) (.http {
    statusCode := 403
    detail := "insufficient scope"
    headers := [("WWW-Authenticate",
      s!"Bearer error=\"insufficient_scope\", scope=\"{requiredScope}\"")] })

/-- `claims["sub"]`. -/
def subjectOf (claims : Dict) : Except RouteExc Value :=
  match claims.lookup "sub" with
  | some subject => .ok subject
  | none => .error (.python "KeyError")

/-- `read_reports(authorization)`. -/
def readReports (interpreter : Interpreter) (verifier : AuthorizationServerVerifier) (visit : Visit)
    (now : ℚ) (authorization : Option String) : EStateM RouteExc KeyCache Dict := do
  let claims ← validatedClaims verifier visit now authorization
  lift (requireScope interpreter claims "reports:read")
  let subject ← lift (subjectOf claims)
  pure [("subject", subject), ("report", .str "access granted")]

variable {interpreter : Interpreter} {verifier : AuthorizationServerVerifier} {visit : Visit}
  {now : ℚ} {authorization : Option String} {cache after : KeyCache} {claims body : Dict}

theorem requireScope_eq_ok {requiredScope : String} {u : Unit} :
    requireScope interpreter claims requiredScope = .ok u ↔
      requiredScope ∈ scopesOf interpreter claims := by
  simp [requireScope]

theorem run_adaptExcept_eq_ok {ε ε' σ α : Type} {f : ε → ε'} {x : EStateM ε σ α} {a : α} {s t : σ} :
    (x.adaptExcept f).run s = .ok a t ↔ x.run s = .ok a t := by
  unfold EStateM.adaptExcept EStateM.run
  beta_reduce
  split <;> simp_all

theorem subjectOf_eq_ok {subject : Value} :
    subjectOf claims = .ok subject ↔ claims.lookup "sub" = some subject := by
  unfold subjectOf
  cases claims.lookup "sub" <;> simp

/-- **Reports are read with a token that is valid and holds the scope**, and by
nobody else. -/
theorem readReports_eq_ok :
    (readReports interpreter verifier visit now authorization).run cache = .ok body after ↔
      ∃ token claims subject, bearerToken authorization = .ok token ∧
        (verifier.validate visit now token).run cache = .ok claims after ∧
          "reports:read" ∈ scopesOf interpreter claims ∧ claims.lookup "sub" = some subject ∧
            body = [("subject", subject), ("report", .str "access granted")] := by
  simp only [readReports, validatedClaims, run_bind_eq_ok, run_lift_eq_ok, run_adaptExcept_eq_ok,
    requireScope_eq_ok, subjectOf_eq_ok, EStateM.run_pure, EStateM.Result.ok.injEq]
  constructor
  · intro h
    obtain ⟨claims, _, ⟨token, _, ⟨htoken, rfl⟩, hclaims⟩, _, _, ⟨hscope, rfl⟩, subject, _,
      ⟨hsubject, rfl⟩, rfl, rfl⟩ := h
    exact ⟨token, claims, subject, htoken, hclaims, hscope, hsubject, rfl⟩
  · intro h
    obtain ⟨token, claims, subject, htoken, hclaims, hscope, hsubject, rfl⟩ := h
    exact ⟨claims, after, ⟨token, cache, ⟨htoken, rfl⟩, hclaims⟩, (), after, ⟨hscope, rfl⟩, subject,
      after, ⟨hsubject, rfl⟩, rfl, rfl⟩

end AgentOAuth
