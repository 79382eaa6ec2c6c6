import AgentOAuth.Model.ClaimsObjects

/-!
# Nesting extends the chain by one

A token whose `act` claim was nested from some claims has the holder in front
of the chain of these claims, whenever both fit under the cap, and cannot be
read otherwise (`nest_extends_chain`).  `nest` looks at the top level only and
copies the rest unread, so what is wrong further inside surfaces when the new
chain is read.
-/

namespace AgentOAuth

open Effect Objects

/-- `chain({"sub": holder, "act": nest(claims)})`. -/
def chainOfNested (holder : String) (claims : Dict) : Except Exc (List String) := do
  let act ← nest claims
  chain [("sub", .str holder), (ACT_CLAIM, .dict act)]

/-! ## What is read back -/

variable {holder : String} {claims : Dict} {identities : List String}

/-- Reading the nested claims back gives the holder and the chain they had. -/
theorem chainOfNested_eq_ok (hholder : holder ≠ "") :
    chainOfNested holder claims = .ok identities ↔
      ∃ tail, chain claims = .ok tail ∧ tail.length < MAXIMUM_CHAIN_DEPTH ∧
        identities = holder :: tail := by
  simp only [chainOfNested, bind_eq_ok]
  constructor
  · intro h
    obtain ⟨act, hnest, hchain⟩ := h
    obtain ⟨subject, hsubject, hne, hactSub, hactAct⟩ := nest_eq_ok hnest
    obtain ⟨_, tail, hsub, _, htail, hlen, rfl⟩ := chain_eq_ok.mp hchain
    obtain rfl : holder = _ := by simpa using hsub
    have htail : ActChain (.dict act) tail := by simpa [ACT_CLAIM] using htail
    -- the first entry of the new tail is the object that `nest` has built
    cases htail with
    | @cons _ actor rest hactor _ hrest =>
        obtain rfl : subject = actor := by simpa [hactSub] using hactor
        rw [hactAct] at hrest
        refine ⟨subject :: rest, ?_, hlen, rfl⟩
        exact chain_eq_ok.mpr ⟨subject, rest, hsubject, hne, hrest, Nat.lt_of_succ_lt hlen, rfl⟩
  · intro h
    obtain ⟨tail, hchain, hlen, rfl⟩ := h
    obtain ⟨act, hnest⟩ := nest_of_chain hchain
    refine ⟨act, hnest, ?_⟩
    apply chain_of_nest hchain hnest _ hholder _ hlen
    · simp
    · simp [ACT_CLAIM]

/-! ## How it fails -/

theorem malformed_chainOfNested (holder : String) (claims : Dict) :
    Raises Exc.IsMalformedChain (chainOfNested holder claims) :=
  (malformed_nest claims).bind fun _ => malformed_chain _

namespace Example.NestChain

/-- The token of a user with an agent behind it. -/
def nested : Dict := [("sub", .str "user"), (ACT_CLAIM, .dict [("sub", .str "agent")])]

def objects : Objects :=
  [[("sub", .value (.str "agent"))], [("sub", .value (.str "user")), (ACT_CLAIM, .object 0)]]

theorem denotes_agent : Denotes objects (.object 0) (.dict [("sub", .str "agent")]) := by
  refine .object rfl fun name => ?_
  rw [slot_cons, Dict.get_cons]
  split
  · exact .value (by simp)
  · exact .value (by simp)

theorem denotes_nested : Denotes objects (.object 1) (.dict nested) := by
  refine .object rfl fun name => ?_
  rw [nested, slot_cons, Dict.get_cons, slot_cons, Dict.get_cons]
  split
  · exact .value (by simp)
  · split
    · exact denotes_agent
    · exact .value (by simp)

end Example.NestChain

/-- **Nesting extends the chain by exactly one.**  Under the cap the holder is
put in front of the chain that was there; whatever else the claims are, the
composition raises `MalformedChainError`; it never returns another tail; and
`nest` leaves every object there was with the entries it had. -/
theorem nest_extends_chain (holder : String) (hholder : holder ≠ "") (claims : Dict) :
    (∀ identities, chain claims = .ok identities → identities.length < MAXIMUM_CHAIN_DEPTH →
      chainOfNested holder claims = .ok (holder :: identities)) ∧
    ((¬ ∃ identities, chain claims = .ok identities ∧ identities.length < MAXIMUM_CHAIN_DEPTH) →
      ∃ description, chainOfNested holder claims = .error (.malformedChain description)) ∧
    (∀ out, chainOfNested holder claims = .ok out →
      ∃ identities, chain claims = .ok identities ∧ out = holder :: identities) ∧
    ∀ (objects : Objects) (reference : ℕ), Denotes objects (.object reference) (.dict claims) →
      ∀ act, nest claims = .ok act → ∃ added,
        objects.nestObject reference = .ok (objects.length, objects ++ [added]) ∧
        Denotes (objects ++ [added]) (.object objects.length) (.dict act) ∧
        Denotes (objects ++ [added]) (.object reference) (.dict claims) := by
  refine ⟨?_, ?_, ?_, ?_⟩
  · intro identities hchain hlen
    exact (chainOfNested_eq_ok hholder).mpr ⟨identities, hchain, hlen, rfl⟩
  · intro hnot
    cases hrun : chainOfNested holder claims with
    | ok out =>
        obtain ⟨tail, hchain, hlen, _⟩ := (chainOfNested_eq_ok hholder).mp hrun
        exact absurd ⟨tail, hchain, hlen⟩ hnot
    | error e =>
        -- every way to fail is a malformed chain
        obtain ⟨description, rfl⟩ := malformed_chainOfNested holder claims e hrun
        exact ⟨description, rfl⟩
  · intro out hout
    obtain ⟨tail, hchain, _, rfl⟩ := (chainOfNested_eq_ok hholder).mp hout
    exact ⟨tail, hchain, rfl⟩
  · intro objects reference hdenotes act hnest
    obtain ⟨added, hrun, hact⟩ := nestObject_of_ok hdenotes hnest
    exact ⟨added, hrun, hact, hdenotes.append [added]⟩

/-- A helper acts for the agent; its `act` refers to the object that was there. -/
theorem nest_extends_chain_agent :
    chain Example.NestChain.nested = .ok ["user", "agent"] ∧
      chainOfNested "helper" Example.NestChain.nested = .ok ["helper", "user", "agent"] ∧
      ∃ act added, nest Example.NestChain.nested = .ok act ∧
        Example.NestChain.objects.nestObject 1 = .ok (2, Example.NestChain.objects ++ [added]) ∧
        Denotes (Example.NestChain.objects ++ [added]) (.object 2) (.dict act) := by
  have hchain : chain Example.NestChain.nested = .ok ["user", "agent"] := by decide +kernel
  have hextends := nest_extends_chain "helper" (by decide) Example.NestChain.nested
  obtain ⟨act, hact⟩ := nest_of_chain hchain
  obtain ⟨added, hrun, hdenotes, _⟩ :=
    hextends.2.2.2 Example.NestChain.objects 1 Example.NestChain.denotes_nested act hact
  exact ⟨hchain, hextends.1 _ hchain (by decide), act, added, hact, hrun, hdenotes⟩

end AgentOAuth
