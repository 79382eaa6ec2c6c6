import AgentOAuth.Model.Errors

/-!
# Strict reading of the token endpoint's body

`src/api/forms.py`.  A request is its content type and the name and value
pairs of its form body; the query string is not part of it, because nothing
reads it.  A dictionary of fields keeps the order in which the loop over
`set(form.keys())` met them, which depends on the interpreter's hash seed, so
that order is a parameter.
-/

namespace AgentOAuth

open Effect

/-- What the server's code leaves to the Python interpreter: `str(v)` of a
value that is not a string, and the order in which a set of strings is
traversed. -/
structure Interpreter where
  str : Value → String
  setOrder : List String → List String
  str_str : ∀ s, str (.str s) = s
  setOrder_perm : ∀ names : List String, (setOrder names).Perm names.dedup

/-- One value of a form body. -/
inductive FormValue
  | text (s : String)
  | upload
  deriving DecidableEq

/-- A request to the token endpoint. -/
structure Request where
  contentType : Option String
  form : List (String × FormValue)

/-- What one request meets on its way: the readings of the clock it takes, in
their order, the random strings it draws, and whether the database fails when
it claims an assertion, and when it records. -/
structure Moment where
  assertionDecoded : ℚ
  assertionChecked : ℚ
  subjectVerified : ℚ
  actorVerified : ℚ
  minted : ℚ
  jti : String
  taskId : String
  claimFails : Bool := false
  insertFails : Bool := false
  assertionDecoded_nonneg : 0 ≤ assertionDecoded
  assertionDecoded_le : assertionDecoded ≤ assertionChecked
  assertionChecked_le : assertionChecked ≤ subjectVerified
  subjectVerified_le : subjectVerified ≤ actorVerified
  actorVerified_le : actorVerified ≤ minted
  taskId_ne : taskId ≠ ""

/-- The validated fields of one token request. -/
structure TokenForm where
  fields : List (String × String)
  deriving DecidableEq

/-- The only media type `read_token_form` takes. -/
def FORM_CONTENT_TYPE : String := "application/x-www-form-urlencoded"

namespace TokenForm

/-- `self.fields.get(name)`. -/
def get (form : TokenForm) (name : String) : Option String :=
  form.fields.lookup name

/-- `require(name)`: an empty value counts as missing. -/
def require (form : TokenForm) (name : String) : Except Exc String :=
  match form.get name with
  | some value =>
      if value = "" then
        .error (.oauth "invalid_request" s!"missing required parameter: {name}" 400)
      else .ok value
  | none => .error (.oauth "invalid_request" s!"missing required parameter: {name}" 400)

/-- `name in self.fields`: an empty value counts. -/
def present (form : TokenForm) (name : String) : Bool :=
  (form.get name).isSome

/-- `self.fields["grant_type"]`. -/
def grantType (form : TokenForm) : Except Exc String :=
  match form.get "grant_type" with
  | some value => .ok value
  | none => .error (.python "KeyError")

theorem require_eq_ok {form : TokenForm} {name value : String} :
    form.require name = .ok value ↔ form.get name = some value ∧ value ≠ "" := by
  unfold require
  cases form.get name with
  | none => simp
  | some v =>
      by_cases hv : v = ""
      · subst hv
        simp only [if_true, reduceCtorEq, Option.some.injEq, false_iff]
        rintro ⟨rfl, hne⟩
        exact hne rfl
      · simp only [hv, if_false, Except.ok.injEq, Option.some.injEq]
        constructor
        · rintro rfl
          exact ⟨rfl, hv⟩
        · exact And.left

theorem require_eq_error {form : TokenForm} {name : String} {e : Exc}
    (h : form.require name = .error e) :
    e = .oauth "invalid_request" s!"missing required parameter: {name}" 400 := by
  unfold require at h
  split at h
  · split at h <;> simp_all
  · simp_all

end TokenForm

/-- `form.getlist(name)`. -/
def getlist (form : List (String × FormValue)) (name : String) : List FormValue :=
  (form.filter fun entry => entry.1 = name).map Prod.snd

/-- The loop of `read_token_form` over the names still to read. -/
def readFields (form : List (String × FormValue)) : List String → Except Exc (List (String × String))
  | [] => .ok []
  | name :: rest =>
      match getlist form name with
      | [.text value] => do
          let fields ← readFields form rest
          pure ((name, value) :: fields)
      | [.upload] => .error (.oauth "invalid_request" s!"{name} must be text" 400)
      | [] => .error (.python "IndexError")
      | _ :: _ :: _ => .error (.oauth "invalid_request" s!"{name} must appear at most once" 400)

/-- `read_token_form(request)`. -/
def readTokenForm (interpreter : Interpreter) (request : Request) : Except Exc TokenForm := do
  let contentType := request.contentType.getD ""
  raiseIf (¬ FORM_CONTENT_TYPE.toList <+: contentType.toLower.toList)
    (.oauth "invalid_request" s!"content type must be {FORM_CONTENT_TYPE}" 400)
  let fields ← readFields request.form (interpreter.setOrder (request.form.map Prod.fst))
  raiseIf ((fields.lookup "grant_type").getD "" = "")
    (.oauth "invalid_request" "missing required parameter: grant_type" 400)
  pure ⟨fields⟩

end AgentOAuth
