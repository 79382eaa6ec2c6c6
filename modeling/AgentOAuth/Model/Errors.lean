import AgentOAuth.Lib.Binary64
import AgentOAuth.Lib.Effect
import AgentOAuth.Model.Value

/-!
# Exceptions

One type for everything the server's code can raise.  `OAuthError` is the only
kind the application turns into a protocol response; `MalformedChainError` is
its one subclass, and `TokenError` is a separate class.  What a library or the
interpreter raises carries the name of its class only.
-/

namespace AgentOAuth

open Effect Binary64

/-- What a request raises. -/
inductive Exc
  /-- `OAuthError(error, description, status_code)`. -/
  | oauth (error description : String) (statusCode : ℕ)
  /-- `MalformedChainError(description)`, an `OAuthError("invalid_grant", description, 400)`. -/
  | malformedChain (description : String)
  /-- `TokenError(description)`. -/
  | token (description : String)
  /-- Any other exception, by the name of its class. -/
  | python (className : String)
  deriving DecidableEq

/-- The three arguments of an exception that is an `OAuthError`. -/
def Exc.asOAuth? : Exc → Option (String × String × ℕ)
  | .oauth error description statusCode => some (error, description, statusCode)
  | .malformedChain description => some ("invalid_grant", description, 400)
  | .token _ => none
  | .python _ => none

/-- The `error` of an exception that is an `OAuthError`. -/
def Exc.error? (e : Exc) : Option String := e.asOAuth?.map Prod.fst

@[simp] theorem Exc.error?_oauth (error description : String) (statusCode : ℕ) :
    (Exc.oauth error description statusCode).error? = some error := rfl

@[simp] theorem Exc.error?_malformedChain (description : String) :
    (Exc.malformedChain description).error? = some "invalid_grant" := rfl

@[simp] theorem Exc.error?_token (description : String) : (Exc.token description).error? = none := rfl

@[simp] theorem Exc.error?_python (className : String) : (Exc.python className).error? = none := rfl

/-- The exceptions PyJWT raises, as far as its callers tell them apart:
`InvalidTokenError` with its subclasses, `PyJWKError`, and everything else. -/
inductive JwtExc
  | invalidToken
  | pyJwk
  | other (className : String)
  deriving DecidableEq

/-- `try: x except jwt.InvalidTokenError: handler`. -/
def exceptInvalidToken {α : Type} (x : Except JwtExc α) (handler : Except Exc α) :
    Except Exc α :=
  match x with
  | .ok a => .ok a
  | .error .invalidToken => handler
  | .error .pyJwk => .error (.python "PyJWKError")
  | .error (.other className) => .error (.python className)

/-- A call of PyJWT with no `try` around it. -/
def uncaught {α : Type} (x : Except JwtExc α) : Except Exc α :=
  exceptInvalidToken x (.error (.python "InvalidTokenError"))

theorem exceptInvalidToken_error_eq_ok {α : Type} {x : Except JwtExc α} {e : Exc} {a : α} :
    exceptInvalidToken x (.error e) = .ok a ↔ x = .ok a := by
  rcases x with (_ | _ | _) | _ <;> simp [exceptInvalidToken]

theorem raises_exceptInvalidToken {α : Type} {P : Exc → Prop} {x : Except JwtExc α} {e : Exc}
    (he : P e) (hpython : ∀ className, P (.python className)) :
    Raises P (exceptInvalidToken x (.error e)) := by
  rcases x with (_ | _ | className) | a
  · exact raises_error he
  · exact raises_error (hpython _)
  · exact raises_error (hpython _)
  · exact raises_ok a

/-! ## Readers that can fail -/

/-- A value the source uses as a string. -/
def Value.text : Value → Except Exc String
  | .str s => .ok s
  | _ => .error (.python "TypeError")

/-- A value the source uses as a `datetime`. -/
def Value.instant : Value → Except Exc ℚ
  | .datetime t => .ok t
  | _ => .error (.python "TypeError")

theorem Value.text_eq_ok {v : Value} {s : String} : v.text = .ok s ↔ v = .str s := by
  cases v <;> simp [Value.text]

theorem Value.instant_eq_ok {v : Value} {t : ℚ} : v.instant = .ok t ↔ v = .datetime t := by
  cases v <;> simp [Value.instant]

/-- Such a reader raises nothing that is an `OAuthError`. -/
theorem Value.python_text (v : Value) : Raises (fun e => e.error? = none) v.text := by
  cases v <;> simp [Value.text, Raises]

theorem Value.python_instant (v : Value) : Raises (fun e => e.error? = none) v.instant := by
  cases v <;> simp [Value.instant, Raises]

/-- A `datetime` counts whole microseconds.  Those of a float are its fraction
times a million, which is a float again, and rounded. -/
def roundMicroseconds (t : ℚ) : ℚ :=
  let whole := truncate t
  whole + roundHalfEven (nearest ((t - whole) * 1000000)) / 1000000

/-- The instants a `datetime` can hold: the years 1 to 9999. -/
def minimumInstant : ℚ := -62135596800

/-- The first second of the year 10000, which no `datetime` reaches. -/
def endOfInstants : ℚ := 253402300800

/-- The instants whose year is a C `int`: `gmtime` fails on the others. -/
def minimumGmtime : ℚ := -67768040609740800

/-- The first second after them. -/
def endOfGmtime : ℚ := 67768036191676800

/-- `datetime.fromtimestamp(v, tz=UTC)`. -/
def fromTimestamp (v : Value) : Except Exc ℚ :=
  match v.number? with
  | none => .error (.python "TypeError")
  | some t =>
      let instant := roundMicroseconds t
      if t < -2 ^ 63 ∨ 2 ^ 63 ≤ t then .error (.python "OverflowError")
      else if instant < minimumGmtime ∨ endOfGmtime ≤ instant then .error (.python "OSError")
      else if minimumInstant ≤ instant ∧ instant < endOfInstants then .ok instant
      else .error (.python "ValueError")

theorem python_fromTimestamp (v : Value) : Raises (fun e => e.error? = none) (fromTimestamp v) := by
  intro e he
  unfold fromTimestamp at he
  cases hnumber : v.number? with
  | none =>
      rw [hnumber] at he
      cases he
      rfl
  | some t =>
      simp only [hnumber] at he
      split at he
      · cases he
        rfl
      · split at he
        · cases he
          rfl
        · split at he <;> cases he
          rfl

/-- Whole seconds are not rounded. -/
@[simp] theorem roundMicroseconds_intCast (n : ℤ) : roundMicroseconds n = n := by
  have hzero : roundHalfEven (0 : ℚ) = 0 := by exact_mod_cast roundHalfEven_intCast 0
  simp [roundMicroseconds, truncate_intCast, hzero]

/-- Rounding does not pass a whole second. -/
theorem le_roundMicroseconds {n : ℤ} {t : ℚ} (h : (n : ℚ) ≤ t) : (n : ℚ) ≤ roundMicroseconds t := by
  have hbound : |(t - truncate t) * 1000000| < 2 ^ 52 := by
    rw [abs_mul]
    norm_num
    linarith [abs_sub_truncate_lt t]
  have hcount : (((n - truncate t) * 1000000 : ℤ) : ℚ) ≤ (t - truncate t) * 1000000 := by
    push_cast
    linarith
  have hrounded : (((n - truncate t) * 1000000 : ℤ) : ℚ) ≤
      roundHalfEven (nearest ((t - truncate t) * 1000000)) := by
    exact_mod_cast le_roundHalfEven_nearest hcount hbound
  push_cast at hrounded
  simp only [roundMicroseconds]
  rw [← sub_le_iff_le_add', le_div_iff₀ (by norm_num)]
  exact hrounded

theorem fromTimestamp_eq_ok {v : Value} {instant : ℚ} :
    fromTimestamp v = .ok instant ↔
      ∃ t, v.number? = some t ∧ -2 ^ 63 ≤ t ∧ t < 2 ^ 63 ∧ instant = roundMicroseconds t ∧
        minimumInstant ≤ instant ∧ instant < endOfInstants := by
  unfold fromTimestamp
  cases v.number? with
  | none => simp
  | some t =>
      simp only [Option.some.injEq, exists_eq_left']
      split
      · next hfar =>
          simp only [reduceCtorEq, false_iff]
          rintro ⟨hlow, hhigh, _⟩
          rcases hfar with hfar | hfar
          · exact absurd hlow (not_le.mpr hfar)
          · exact absurd hhigh (not_lt.mpr hfar)
      · next hnear =>
          rw [not_or, not_lt, not_le] at hnear
          split
          · next hyear =>
              -- a year that is no C `int` is not one of a `datetime` either
              simp only [reduceCtorEq, false_iff]
              rintro ⟨_, _, rfl, hlow, hhigh⟩
              have hfirst : minimumGmtime ≤ minimumInstant := by decide +kernel
              have hlast : endOfInstants ≤ endOfGmtime := by decide +kernel
              rcases hyear with hyear | hyear <;> linarith
          · split
            · next hrange =>
                simp only [Except.ok.injEq]
                constructor
                · rintro rfl
                  exact ⟨hnear.1, hnear.2, rfl, hrange⟩
                · rintro ⟨_, _, rfl, _⟩
                  rfl
            · next hrange =>
                simp only [reduceCtorEq, false_iff]
                rintro ⟨_, _, rfl, h⟩
                exact hrange h

end AgentOAuth
