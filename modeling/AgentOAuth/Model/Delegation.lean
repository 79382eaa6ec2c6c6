import AgentOAuth.Model.Errors

/-!
# Reading a delegation chain

`src/services/delegation.py`.  The outermost `sub` holds the token, the
innermost `act` entry is where the authority came from.

`walk` is the loop of `chain`.  It stops because every round uses up one of
the entries `MAXIMUM_CHAIN_DEPTH` leaves; the check against entries already
seen cannot fire on claims decoded from JSON, where no two objects are the
same object.  `ActChain` says without a loop what a well-formed `act` value
is, and `chain_eq_ok` that `chain` accepts exactly those, up to the cap.
-/

namespace AgentOAuth

open Effect

/-- The identities a chain may have before `chain` calls it malformed. -/
def MAXIMUM_CHAIN_DEPTH : ℕ := 32

/-- Who acts, with those it acts for nested inside. -/
def ACT_CLAIM : String := "act"

/-- The task all tokens of one tree share. -/
def TASK_CLAIM : String := "task_id"

/-- The only actor a subject allows. -/
def MAY_ACT_CLAIM : String := "may_act"

/-- How many exchanges led to the token. -/
def DEPTH_CLAIM : String := "delegation_depth"

/-- The tenant whose authority the token carries. -/
def TENANT_CLAIM : String := "tenant"

/-- The loop of `chain`: `remaining` more identities fit under the cap. -/
def walk : ℕ → Value → List String → Except Exc (List String)
  | _, .null, identities => .ok identities
  | remaining, .dict entry, identities =>
      match Dict.get entry "sub" with
      | .str actor =>
          if actor = "" then .error (.malformedChain "an act entry has no subject")
          else
            match remaining with
            | 0 => .error (.malformedChain "act chain is too deep to read")
            | rest + 1 => walk rest (Dict.get entry ACT_CLAIM) (identities ++ [actor])
      | _ => .error (.malformedChain "an act entry has no subject")
  | _, _, _ => .error (.malformedChain "act must be an object")

/-- `chain(claims)`: outermost first. -/
def chain (claims : Dict) : Except Exc (List String) :=
  match Dict.get claims "sub" with
  | .str subject =>
      if subject = "" then .error (.malformedChain "token has no subject")
      else walk (MAXIMUM_CHAIN_DEPTH - 1) (Dict.get claims ACT_CLAIM) [subject]
  | _ => .error (.malformedChain "token has no subject")

/-- `chain(claims)[-1]`. -/
def root (claims : Dict) : Except Exc String := do
  let identities ← chain claims
  match identities.getLast? with
  | some identity => pure identity
  | none => .error (.python "IndexError")

/-- Hops away from the root. -/
def depth (claims : Dict) : Except Exc ℤ := do
  let identities ← chain claims
  pure (identities.length - 1)

/-- `nest(subject_claims)`: the `act` claim of a token derived from it. -/
def nest (subjectClaims : Dict) : Except Exc Dict :=
  match Dict.get subjectClaims "sub" with
  | .str subject =>
      if subject = "" then .error (.malformedChain "subject token has no subject")
      else
        match Dict.get subjectClaims ACT_CLAIM with
        | .null => .ok [("sub", .str subject)]
        | .dict existing => .ok [("sub", .str subject), (ACT_CLAIM, .dict existing)]
        | _ => .error (.malformedChain "act must be an object")
  | _ => .error (.malformedChain "subject token has no subject")

/-- Whether one entry of `may_act` names the actor. -/
def namesActor (actorSubject : String) : Value → Bool
  | .dict entry => Dict.get entry "sub" = .str actorSubject
  | _ => false

/-- `may_act_permits(subject_claims, actor_subject)`. -/
def mayActPermits (subjectClaims : Dict) (actorSubject : String) : Except Exc Bool :=
  match Dict.get subjectClaims MAY_ACT_CLAIM with
  | .null => .ok true
  | .dict entry => .ok (namesActor actorSubject (.dict entry))
  | .list entries => .ok (entries.any (namesActor actorSubject))
  | _ => .error (.malformedChain "may_act must be an object or a list of objects")

/-- An optional claim that has to be a non-empty string. -/
def optionalText (claims : Dict) (name : String) : Except Exc (Option String) :=
  match Dict.get claims name with
  | .null => .ok none
  | .str value =>
      if value = "" then .error (.malformedChain s!"{name} must be a non-empty string")
      else .ok (some value)
  | _ => .error (.malformedChain s!"{name} must be a non-empty string")

/-- `task_of(subject_claims)`. -/
def taskOf (subjectClaims : Dict) : Except Exc (Option String) :=
  optionalText subjectClaims TASK_CLAIM

/-- `tenant_of(claims)`. -/
def tenantOf (claims : Dict) : Except Exc (Option String) :=
  optionalText claims TENANT_CLAIM

/-- `declared_depth(claims)`: the two counters have to agree. -/
def declaredDepth (claims : Dict) : Except Exc ℤ :=
  match Dict.get claims DEPTH_CLAIM with
  | .int declared => do
      raiseIf (declared < 0) (.malformedChain "token does not declare a delegation depth")
      let actual ← depth claims
      raiseIf (declared ≠ actual)
        (.malformedChain "delegation depth disagrees with the act chain")
      pure declared
  | _ => .error (.malformedChain "token does not declare a delegation depth")

/-! ## What a well-formed chain is -/

/-- `node` nests exactly the subjects `tail`, outermost first. -/
inductive ActChain : Value → List String → Prop
  | nil : ActChain .null []
  | cons {entry : Dict} {actor : String} {tail : List String} :
      Dict.get entry "sub" = .str actor → actor ≠ "" →
        ActChain (Dict.get entry ACT_CLAIM) tail → ActChain (.dict entry) (actor :: tail)

theorem walk_eq_ok {remaining : ℕ} {node : Value} {identities out : List String} :
    walk remaining node identities = .ok out ↔
      ∃ tail, ActChain node tail ∧ tail.length ≤ remaining ∧ out = identities ++ tail := by
  constructor
  · intro h
    induction remaining generalizing node identities with
    | zero =>
        cases node with
        | null =>
            obtain rfl : identities = out := by simpa [walk] using h
            exact ⟨[], .nil, by simp, by simp⟩
        | dict entry =>
            rw [walk] at h
            split at h <;> (try split at h) <;> simp_all
        | _ => simp [walk] at h
    | succ remaining ih =>
        cases node with
        | null =>
            obtain rfl : identities = out := by simpa [walk] using h
            exact ⟨[], .nil, by simp, by simp⟩
        | dict entry =>
            rw [walk] at h
            split at h
            · next actor hsub =>
                split at h
                · simp at h
                · next hne =>
                    obtain ⟨tail, htail, hlen, rfl⟩ := ih h
                    exact ⟨actor :: tail, .cons hsub hne htail, by simpa using hlen, by simp⟩
            · simp at h
        | _ => simp [walk] at h
  · rintro ⟨tail, htail, hlen, rfl⟩
    induction htail generalizing remaining identities with
    | nil => simp [walk]
    | @cons entry actor tail hsub hne _ ih =>
        obtain ⟨rest, rfl⟩ : ∃ rest, remaining = rest + 1 :=
          ⟨remaining - 1, by simp only [List.length_cons] at hlen; omega⟩
        rw [walk, hsub]
        simp only [hne, if_false]
        rw [ih (by simpa using hlen)]
        simp

/-- `chain` accepts exactly the well-formed chains that fit under the cap. -/
theorem chain_eq_ok {claims : Dict} {identities : List String} :
    chain claims = .ok identities ↔
      ∃ subject tail, Dict.get claims "sub" = .str subject ∧ subject ≠ "" ∧
        ActChain (Dict.get claims ACT_CLAIM) tail ∧ tail.length < MAXIMUM_CHAIN_DEPTH ∧
          identities = subject :: tail := by
  unfold chain
  split
  · next subject hsub =>
      by_cases hne : subject = ""
      · simp [hne, hsub]
      · simp only [hne, if_false, walk_eq_ok, hsub, Value.str.injEq]
        constructor
        · rintro ⟨tail, htail, hlen, rfl⟩
          exact ⟨subject, tail, rfl, hne, htail, by unfold MAXIMUM_CHAIN_DEPTH at *; omega, rfl⟩
        · rintro ⟨_, tail, rfl, _, htail, hlen, rfl⟩
          exact ⟨tail, htail, by unfold MAXIMUM_CHAIN_DEPTH at *; omega, rfl⟩
  · next hnot =>
      simp only [reduceCtorEq, false_iff]
      rintro ⟨subject, _, hsub, _⟩
      exact hnot subject hsub

theorem ActChain.forall_ne {node : Value} {tail : List String} (h : ActChain node tail) :
    ∀ identity ∈ tail, identity ≠ "" := by
  induction h with
  | nil => simp
  | cons _ hne _ ih => exact List.forall_mem_cons.mpr ⟨hne, ih⟩

/-- Nobody in a chain is nameless. -/
theorem chain_forall_ne {claims : Dict} {identities : List String}
    (h : chain claims = .ok identities) : ∀ identity ∈ identities, identity ≠ "" := by
  obtain ⟨subject, tail, _, hne, htail, _, rfl⟩ := chain_eq_ok.mp h
  exact List.forall_mem_cons.mpr ⟨hne, htail.forall_ne⟩

/-- The root is the last of the chain. -/
theorem root_eq_ok {claims : Dict} {identity : String} :
    root claims = .ok identity ↔ ∃ identities, chain claims = .ok (identities ++ [identity]) := by
  simp only [root, bind_eq_ok]
  constructor
  · rintro ⟨identities, hchain, hlast⟩
    cases hget : identities.getLast? with
    | none => simp [hget] at hlast
    | some last =>
        obtain rfl : last = identity := by simpa [hget, pure_eq_ok] using hlast
        obtain ⟨init, rfl⟩ := List.getLast?_eq_some_iff.mp hget
        exact ⟨init, hchain⟩
  · rintro ⟨identities, hchain⟩
    exact ⟨_, hchain, by simp [pure_eq_ok]⟩

theorem depth_eq_ok {claims : Dict} {identities : List String} (h : chain claims = .ok identities) :
    depth claims = .ok (identities.length - 1) := by
  simp [depth, h, bind, Except.bind, pure, Except.pure]

theorem declaredDepth_eq_ok {claims : Dict} {n : ℤ} :
    declaredDepth claims = .ok n ↔
      Dict.get claims DEPTH_CLAIM = .int n ∧ 0 ≤ n ∧
        ∃ identities, chain claims = .ok identities ∧ n = identities.length - 1 := by
  unfold declaredDepth
  split
  · next declared hdeclared =>
      simp only [bind_eq_ok, raiseIf_eq_ok, pure_eq_ok, not_lt, ne_eq, not_not, hdeclared,
        Value.int.injEq, depth]
      constructor
      · rintro ⟨_, hnonneg, actual, ⟨identities, hchain, rfl⟩, _, heq, rfl⟩
        exact ⟨rfl, hnonneg, identities, hchain, heq⟩
      · rintro ⟨rfl, hnonneg, identities, hchain, heq⟩
        exact ⟨(), hnonneg, _, ⟨identities, hchain, rfl⟩, (), heq, rfl⟩
  · next hnot =>
      simp only [reduceCtorEq, false_iff]
      rintro ⟨hint, _⟩
      exact hnot n hint

/-- What `nest` builds nests the subject over the subject's own chain. -/
theorem nest_eq_ok {claims act : Dict} (h : nest claims = .ok act) :
    ∃ subject, Dict.get claims "sub" = .str subject ∧ subject ≠ "" ∧
      Dict.get act "sub" = .str subject ∧
        Dict.get act ACT_CLAIM = Dict.get claims ACT_CLAIM := by
  unfold nest at h
  split at h
  · next subject hsub =>
      split at h
      · simp at h
      · next hne =>
          refine ⟨subject, hsub, hne, ?_⟩
          split at h
          · next hact =>
              obtain rfl := Except.ok.inj h
              rw [hact]
              exact ⟨rfl, rfl⟩
          · next existing hact =>
              obtain rfl := Except.ok.inj h
              rw [hact]
              exact ⟨rfl, rfl⟩
          · simp at h
  · simp at h

theorem nest_of_chain {claims : Dict} {identities : List String}
    (h : chain claims = .ok identities) : ∃ act, nest claims = .ok act := by
  obtain ⟨subject, tail, hsub, hne, htail, _, rfl⟩ := chain_eq_ok.mp h
  unfold nest
  rw [hsub]
  simp only [hne, if_false]
  cases hact : Dict.get claims ACT_CLAIM with
  | null => exact ⟨_, rfl⟩
  | dict existing => exact ⟨_, rfl⟩
  | _ => rw [hact] at htail; cases htail

/-- **One hop extends the chain by one.**  A token whose `act` claim was nested
from `claims` has the holder followed by the chain of `claims`. -/
theorem chain_of_nest {claims act derived : Dict} {holder : String} {identities : List String}
    (hchain : chain claims = .ok identities) (hnest : nest claims = .ok act)
    (hsub : Dict.get derived "sub" = .str holder) (hne : holder ≠ "")
    (hact : Dict.get derived ACT_CLAIM = .dict act)
    (hlen : identities.length < MAXIMUM_CHAIN_DEPTH) :
    chain derived = .ok (holder :: identities) := by
  obtain ⟨subject, tail, hsubject, hsubject_ne, htail, _, rfl⟩ := chain_eq_ok.mp hchain
  obtain ⟨subject', hsubject', _, hactsub, hactact⟩ := nest_eq_ok hnest
  obtain rfl : subject = subject' := by simpa [hsubject] using hsubject'
  refine chain_eq_ok.mpr ⟨holder, subject :: tail, hsub, hne, ?_, hlen, rfl⟩
  rw [hact]
  exact .cons hactsub hsubject_ne (by rw [hactact]; exact htail)

theorem optionalText_eq_some {claims : Dict} {name value : String} :
    optionalText claims name = .ok (some value) ↔
      Dict.get claims name = .str value ∧ value ≠ "" := by
  unfold optionalText
  split
  · next h => simp [h]
  · next v h =>
      by_cases hv : v = ""
      · simp only [hv, if_true, reduceCtorEq, h, Value.str.injEq, false_iff]
        rintro ⟨rfl, hne⟩
        exact hne rfl
      · simp only [hv, if_false, Except.ok.injEq, Option.some.injEq, h, Value.str.injEq]
        constructor
        · rintro rfl
          exact ⟨rfl, hv⟩
        · exact And.left
  · next hnot =>
      simp only [reduceCtorEq, false_iff]
      rintro ⟨hstr, _⟩
      exact absurd hstr (by simpa using hnot value)

theorem optionalText_eq_none {claims : Dict} {name : String} :
    optionalText claims name = .ok none ↔ Dict.get claims name = .null := by
  unfold optionalText
  split
  · next h => simp [h]
  · next v h => by_cases hv : v = "" <;> simp [hv, h]
  · next hnull _ => simpa using hnull

/-! ## What the readers raise -/

/-- A `MalformedChainError`. -/
def Exc.IsMalformedChain (e : Exc) : Prop := ∃ description, e = .malformedChain description

theorem Exc.IsMalformedChain.error? {e : Exc} (h : e.IsMalformedChain) :
    e.error? = some "invalid_grant" := by
  obtain ⟨_, rfl⟩ := h
  rfl

theorem malformed_walk (remaining : ℕ) (node : Value) (identities : List String) :
    Raises Exc.IsMalformedChain (walk remaining node identities) := by
  fun_induction walk remaining node identities with
  | case1 => exact raises_ok _
  | case4 _ _ _ _ _ _ ih => exact ih
  | _ => exact raises_error ⟨_, rfl⟩

theorem malformed_chain (claims : Dict) : Raises Exc.IsMalformedChain (chain claims) := by
  unfold chain
  split
  · split
    · exact raises_error ⟨_, rfl⟩
    · exact malformed_walk _ _ _
  · exact raises_error ⟨_, rfl⟩

/-- A chain that can be read is not empty, so `root` raises nothing else. -/
theorem malformed_root (claims : Dict) : Raises Exc.IsMalformedChain (root claims) := by
  intro e he
  rcases bind_eq_error.mp he with hchain | ⟨identities, hchain, hlast⟩
  · exact malformed_chain claims e hchain
  · obtain ⟨subject, tail, _, _, _, _, rfl⟩ := chain_eq_ok.mp hchain
    rw [List.getLast?_eq_some_getLast (List.cons_ne_nil _ _)] at hlast
    simp [pure, Except.pure] at hlast

theorem malformed_nest (claims : Dict) : Raises Exc.IsMalformedChain (nest claims) := by
  intro e he
  unfold nest at he
  split at he
  · split at he
    · exact ⟨_, (Except.error.inj he).symm⟩
    · split at he
      · simp at he
      · simp at he
      · exact ⟨_, (Except.error.inj he).symm⟩
  · exact ⟨_, (Except.error.inj he).symm⟩

theorem malformed_mayActPermits (claims : Dict) (actorSubject : String) :
    Raises Exc.IsMalformedChain (mayActPermits claims actorSubject) := by
  unfold mayActPermits
  split
  · exact raises_ok _
  · exact raises_ok _
  · exact raises_ok _
  · exact raises_error ⟨_, rfl⟩

theorem malformed_optionalText (claims : Dict) (name : String) :
    Raises Exc.IsMalformedChain (optionalText claims name) := by
  unfold optionalText
  split
  · exact raises_ok _
  · split
    · exact raises_error ⟨_, rfl⟩
    · exact raises_ok _
  · exact raises_error ⟨_, rfl⟩

theorem malformed_declaredDepth (claims : Dict) :
    Raises Exc.IsMalformedChain (declaredDepth claims) := by
  unfold declaredDepth
  split
  · refine (raises_raiseIf ⟨_, rfl⟩).bind fun _ => Raises.bind ?_ fun actual => ?_
    · exact (malformed_chain claims).bind fun _ => raises_pure _
    · exact (raises_raiseIf ⟨_, rfl⟩).bind fun _ => raises_pure _
  · exact raises_error ⟨_, rfl⟩

end AgentOAuth
