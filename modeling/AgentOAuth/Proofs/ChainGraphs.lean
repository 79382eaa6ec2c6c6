import AgentOAuth.Lib.Loop
import AgentOAuth.Model.ClaimsObjects

/-!
# `chain` on any graph of dictionaries

What a verified token holds is finite, and there `chain` never meets a
dictionary twice.  The function itself is handed dictionaries, and these may
share parts or contain themselves.  `chainRound` is the body of its loop as the
source has it; the loop has no other bound than its own checks, and it always
stops (`chains_iff`).

`Subjects` says what a well-formed chain is, without a word about visited
dictionaries: a graph in which following `act` ends is one without a cycle on
the way, so the check for a cycle refuses no such chain.
-/

namespace AgentOAuth

open Loop

namespace Objects

variable {objects : Objects} {claims node : ℕ} {s : Slot} {actors l : List String}

/-- The variables of the loop of `chain`. -/
structure Walk where
  identities : List String
  seen : List ℕ
  node : Slot

/-- One round of the loop of `chain`. -/
def chainRound (objects : Objects) (w : Walk) : Round Walk Exc (List String) :=
  match w.node with
  | .value .null => .done w.identities
  | .value _ => .raise (.malformedChain "act must be an object")
  | .object node =>
      if node ∈ w.seen then .raise (.malformedChain "act chain refers to itself")
      else
        match objects.get node "sub" with
        | .value (.str actor) =>
            if actor = "" then .raise (.malformedChain "an act entry has no subject")
            else if (w.identities ++ [actor]).length > MAXIMUM_CHAIN_DEPTH then
              .raise (.malformedChain "act chain is too deep to read")
            else
              .next {
                identities := w.identities ++ [actor]
                seen := node :: w.seen
                node := objects.get node ACT_CLAIM }
        | _ => .raise (.malformedChain "an act entry has no subject")

/-- `chain(claims)` ends with `r`, its loop running for as long as it may. -/
def Chains (objects : Objects) (claims : ℕ) (r : Except Exc (List String)) : Prop :=
  match objects.get claims "sub" with
  | .value (.str subject) =>
      if subject = "" then r = .error (.malformedChain "token has no subject")
      else ∃ rounds, Ends objects.chainRound rounds
        ⟨[subject], [claims], objects.get claims ACT_CLAIM⟩ r
  | _ => r = .error (.malformedChain "token has no subject")

/-- Following `act` from `s` ends at an absent or null one, and every dictionary
on the way has a subject. -/
inductive Subjects (objects : Objects) : Slot → List String → Prop
  | root : Subjects objects (.value .null) []
  | entry {node : ℕ} {actor : String} {actors : List String} :
      objects.get node "sub" = .value (.str actor) → actor ≠ "" →
        Subjects objects (objects.get node ACT_CLAIM) actors →
          Subjects objects (.object node) (actor :: actors)

/-! ## The loop stops -/

/-- The invariant of the loop: the identities fit under the cap. -/
def Fits (w : Walk) : Prop := w.identities.length ≤ MAXIMUM_CHAIN_DEPTH

/-- How many more identities fit. -/
def room (w : Walk) : ℕ := MAXIMUM_CHAIN_DEPTH - w.identities.length

theorem chainRound_eq_next {w w' : Walk} :
    objects.chainRound w = .next w' ↔ ∃ node actor, w.node = .object node ∧ node ∉ w.seen ∧
      objects.get node "sub" = .value (.str actor) ∧ actor ≠ "" ∧
        w.identities.length < MAXIMUM_CHAIN_DEPTH ∧
          w' = ⟨w.identities ++ [actor], node :: w.seen, objects.get node ACT_CLAIM⟩ := by
  constructor
  · intro h
    unfold chainRound at h
    split at h
    · cases h
    · cases h
    · next node hnode =>
        split at h
        · cases h
        · next hseen =>
            split at h
            · next actor hactor =>
                split at h
                · cases h
                · next hne =>
                    split at h
                    · cases h
                    · next hfits =>
                        obtain rfl := Round.next.inj h
                        -- the guard counts the actor that is about to be added
                        rw [List.length_append, List.length_singleton] at hfits
                        exact ⟨node, actor, hnode, hseen, hactor, hne, by omega, rfl⟩
            · cases h
  · intro h
    obtain ⟨node, actor, hnode, hseen, hactor, hne, hfits, rfl⟩ := h
    have hlength : ¬ (w.identities ++ [actor]).length > MAXIMUM_CHAIN_DEPTH := by
      rw [List.length_append, List.length_singleton]
      omega
    rw [chainRound, hnode]
    simp only [hseen, if_false]
    rw [hactor]
    simp only [hne, hlength, if_false]

theorem chainRound_eq_done {w : Walk} :
    objects.chainRound w = .done l ↔ w.node = .value .null ∧ l = w.identities := by
  constructor
  · intro h
    unfold chainRound at h
    split at h
    · next hnode => exact ⟨hnode, (Round.done.inj h).symm⟩
    · cases h
    · repeat' split at h
      all_goals cases h
  · intro h
    obtain ⟨hnode, rfl⟩ := h
    rw [chainRound, hnode]

/-- Whatever a round raises is a malformed chain. -/
theorem chainRound_eq_raise {w : Walk} {e : Exc} (h : objects.chainRound w = .raise e) :
    ∃ description, e = .malformedChain description := by
  unfold chainRound at h
  repeat' split at h
  all_goals cases h
  all_goals exact ⟨_, rfl⟩

/-- A `sub` is a string or not. -/
theorem sub_cases (objects : Objects) (node : ℕ) :
    (∃ subject, objects.get node "sub" = .value (.str subject)) ∨
      ∀ subject, objects.get node "sub" ≠ .value (.str subject) := by
  by_cases h : ∃ subject, objects.get node "sub" = .value (.str subject)
  · exact .inl h
  · exact .inr fun subject hsubject => h ⟨subject, hsubject⟩

/-- Each round adds an identity, which is what stops a cycle of any length. -/
theorem chainRound_decreases (w w' : Walk) (_ : Fits w) (h : objects.chainRound w = .next w') :
    Fits w' ∧ room w' < room w := by
  obtain ⟨_, _, _, _, _, _, hfits, rfl⟩ := chainRound_eq_next.mp h
  simp only [Fits, room, List.length_append, List.length_singleton]
  omega

/-- `walkObject` unfolds as the loop does. -/
theorem walkObject_unfold (w : Walk) (_ : Fits w) :
    objects.walkObject w.seen (room w) w.node w.identities =
      (objects.chainRound w).outcome
        fun w' => objects.walkObject w'.seen (room w') w'.node w'.identities := by
  obtain ⟨identities, seen, s⟩ := w
  cases s with
  | value v => cases v <;> simp [walkObject, chainRound, Round.outcome]
  | object node =>
      rw [walkObject, chainRound]
      by_cases hseen : node ∈ seen
      · simp only [hseen, if_true, Round.outcome]
      simp only [hseen, if_false]
      rcases objects.sub_cases node with ⟨actor, hactor⟩ | hnot
      · rw [hactor]
        by_cases hempty : actor = ""
        · simp only [hempty, if_true, Round.outcome]
        simp only [hempty, if_false, List.length_append, List.length_singleton, gt_iff_lt]
        by_cases hfull : MAXIMUM_CHAIN_DEPTH < identities.length + 1
        · have hroom : room ⟨identities, seen, .object node⟩ = 0 := by
            simp only [room]
            omega
          simp only [hfull, hroom, if_true, Round.outcome]
        · have hroom : room ⟨identities, seen, .object node⟩ =
              room ⟨identities ++ [actor], node :: seen, objects.get node ACT_CLAIM⟩ + 1 := by
            simp only [room, List.length_append, List.length_singleton]
            omega
          simp only [hfull, hroom, if_false, Round.outcome]
      · simp only [Round.outcome]

/-- **`chain` stops on every graph**, and the loop ends with what `chainObject`
computes. -/
theorem chains_iff {r : Except Exc (List String)} :
    objects.Chains claims r ↔ r = objects.chainObject claims := by
  have hstart : ∀ subject, Fits ⟨[subject], [claims], objects.get claims ACT_CLAIM⟩ := by
    intro subject
    exact show 1 ≤ MAXIMUM_CHAIN_DEPTH by decide
  unfold Chains chainObject
  rcases objects.sub_cases claims with ⟨subject, hsubject⟩ | hnot
  · rw [hsubject]
    by_cases hempty : subject = ""
    · simp only [hempty, if_true]
    · simp only [hempty, if_false]
      exact ends_iff chainRound_decreases walkObject_unfold (hstart subject)
  · simp only

/-! ## What is accepted -/

/-- Following `act` from a dictionary that starts a chain ends. -/
theorem Subjects.acc (h : objects.Subjects s actors) :
    ∀ node, s = .object node → Acc objects.Nested node := by
  induction h with
  | root => intro node hs; cases hs
  | entry _ _ _ ih =>
      intro node hs
      obtain rfl := Slot.object.inj hs
      exact .intro _ fun below hbelow => ih below hbelow

/-- The loop runs down a chain that fits to its end. -/
theorem ends_of_subjects (h : objects.Subjects s actors) :
    ∀ w : Walk, w.node = s → w.identities.length + actors.length ≤ MAXIMUM_CHAIN_DEPTH →
      objects.SeenAbove w.seen s →
        ∃ rounds, Ends objects.chainRound rounds w (.ok (w.identities ++ actors)) := by
  induction h with
  | root =>
      intro w hnode _ _
      refine ⟨0, .done (chainRound_eq_done.mpr ⟨hnode, ?_⟩)⟩
      rw [List.append_nil]
  | @entry node actor actors hactor hne hrest ih =>
      intro w hnode hfits hseen
      have hnot : node ∉ w.seen := hseen.notMem ((Subjects.entry hactor hne hrest).acc node rfl)
      rw [List.length_cons] at hfits
      have hround : objects.chainRound w =
          .next ⟨w.identities ++ [actor], node :: w.seen, objects.get node ACT_CLAIM⟩ :=
        chainRound_eq_next.mpr ⟨node, actor, hnode, hnot, hactor, hne, by omega, rfl⟩
      have hlength : (w.identities ++ [actor]).length + actors.length ≤ MAXIMUM_CHAIN_DEPTH := by
        rw [List.length_append, List.length_singleton]
        omega
      obtain ⟨rounds, hends⟩ := ih ⟨w.identities ++ [actor], node :: w.seen, _⟩ rfl hlength hseen.next
      rw [List.append_assoc, List.singleton_append] at hends
      exact ⟨rounds + 1, .next hround hends⟩

/-- What the loop makes of `w`: it returns the subjects of a chain that fits, or
refuses. -/
def Reads (objects : Objects) (w : Walk) (r : Except Exc (List String)) : Prop :=
  (∃ actors, r = .ok (w.identities ++ actors) ∧ objects.Subjects w.node actors ∧
      w.identities.length + actors.length ≤ MAXIMUM_CHAIN_DEPTH) ∨
    ∃ description, r = .error (.malformedChain description)

/-- A round that goes on puts one subject before those that are still read. -/
theorem Reads.of_next {w w' : Walk} {r : Except Exc (List String)}
    (hround : objects.chainRound w = .next w') (h : objects.Reads w' r) : objects.Reads w r := by
  obtain ⟨node, actor, hnode, _, hactor, hne, _, rfl⟩ := chainRound_eq_next.mp hround
  rcases h with ⟨actors, rfl, hactors, hlength⟩ | hrefused
  · refine .inl ⟨actor :: actors, ?_, ?_, ?_⟩
    · rw [List.append_assoc, List.singleton_append]
    · rw [hnode]
      exact .entry hactor hne hactors
    · simp only [List.length_append, List.length_cons] at hlength ⊢
      omega
  · exact .inr hrefused

theorem reads_of_ends {w : Walk} {rounds : ℕ} {r : Except Exc (List String)}
    (h : Ends objects.chainRound rounds w r) (hfits : Fits w) : objects.Reads w r := by
  refine h.rule (P := Fits) (Q := objects.Reads) ?_ ?_ ?_ ?_ hfits
  · intro w w' hfits hround
    exact (chainRound_decreases w w' hfits hround).1
  · intro w l hfits hround
    obtain ⟨hnode, rfl⟩ := chainRound_eq_done.mp hround
    refine .inl ⟨[], ?_, ?_, hfits⟩
    · rw [List.append_nil]
    · rw [hnode]
      exact .root
  · intro w e _ hround
    obtain ⟨description, rfl⟩ := chainRound_eq_raise hround
    exact .inr ⟨description, rfl⟩
  · intro w w' r _ hround hreads
    exact hreads.of_next hround

/-- The claims and, following `act`, at most 31 dictionaries down to an absent
one have the subjects `l`. -/
def WellFormed (objects : Objects) (claims : ℕ) (l : List String) : Prop :=
  ∃ subject actors, l = subject :: actors ∧ objects.get claims "sub" = .value (.str subject) ∧
    subject ≠ "" ∧ objects.Subjects (objects.get claims ACT_CLAIM) actors ∧
      actors.length ≤ MAXIMUM_CHAIN_DEPTH - 1

theorem WellFormed.acc (h : objects.WellFormed claims l) : Acc objects.Nested claims := by
  obtain ⟨_, _, _, _, _, hactors, _⟩ := h
  exact .intro _ fun below hbelow => hactors.acc below hbelow

theorem chainObject_of_wellFormed (h : objects.WellFormed claims l) :
    objects.chainObject claims = .ok l := by
  obtain ⟨subject, actors, rfl, hsubject, hne, hactors, hfits⟩ := h
  have hcap : MAXIMUM_CHAIN_DEPTH = 32 := rfl
  refine (chains_iff.mp ?_).symm
  rw [Chains, hsubject]
  simp only [hne, if_false]
  apply ends_of_subjects hactors ⟨[subject], [claims], _⟩ rfl
  · rw [List.length_singleton]
    omega
  · exact seenAbove_start objects claims

theorem chainObject_cases (objects : Objects) (claims : ℕ) :
    (∃ l, objects.chainObject claims = .ok l ∧ objects.WellFormed claims l) ∨
      ∃ description, objects.chainObject claims = .error (.malformedChain description) := by
  have hcap : MAXIMUM_CHAIN_DEPTH = 32 := rfl
  have hchains : objects.Chains claims (objects.chainObject claims) := chains_iff.mpr rfl
  unfold Chains at hchains
  split at hchains
  · next subject hsubject =>
      split at hchains
      · exact .inr ⟨_, hchains⟩
      · next hne =>
          obtain ⟨rounds, hends⟩ := hchains
          rcases reads_of_ends hends (show 1 ≤ MAXIMUM_CHAIN_DEPTH by decide) with
            ⟨actors, hok, hactors, hlength⟩ | hrefused
          · rw [List.length_singleton] at hlength
            exact .inl ⟨_, hok, subject, actors, rfl, hsubject, hne, hactors, by omega⟩
          · exact .inr hrefused
  · exact .inr ⟨_, hchains⟩

theorem chainObject_eq_ok : objects.chainObject claims = .ok l ↔ objects.WellFormed claims l := by
  constructor
  · intro h
    rcases chainObject_cases objects claims with ⟨l', hok, hwell⟩ | ⟨_, hrefused⟩
    · obtain rfl := Except.ok.inj (h.symm.trans hok)
      exact hwell
    · rw [h] at hrefused
      cases hrefused
  · exact chainObject_of_wellFormed

theorem chainObject_refuses (h : ∀ l, ¬ objects.WellFormed claims l) :
    ∃ description, objects.chainObject claims = .error (.malformedChain description) := by
  rcases chainObject_cases objects claims with ⟨l, _, hwell⟩ | hrefused
  · exact absurd hwell (h l)
  · exact hrefused

/-- A dictionary below the claims that is below itself makes no chain. -/
theorem not_wellFormed_of_cycle (hreached : Relation.ReflTransGen objects.Nested node claims)
    (hcycle : Relation.TransGen objects.Nested node node) : ¬ objects.WellFormed claims l := by
  intro hwell
  have hacc : Acc objects.Nested node := by
    rcases Relation.reflTransGen_iff_eq_or_transGen.mp hreached with rfl | hbelow
    · exact hwell.acc
    · exact hwell.acc.inv_of_transGen hbelow
  exact not_rel_self hacc.transGen hcycle

/-- **`chain` accepts exactly the well-formed chains and always stops**, on
every graph.  It returns at least one and at most 32 identities, and whatever
it refuses, a cycle of any length among them, it refuses as malformed. -/
theorem chain_exact (objects : Objects) (claims : ℕ) :
    (∀ r, objects.Chains claims r ↔ r = objects.chainObject claims) ∧
    (∀ l, objects.chainObject claims = .ok l ↔ objects.WellFormed claims l) ∧
    (∀ l, objects.chainObject claims = .ok l → 1 ≤ l.length ∧ l.length ≤ 32) ∧
    ((∀ l, ¬ objects.WellFormed claims l) →
      ∃ description, objects.chainObject claims = .error (.malformedChain description)) ∧
    ∀ node, Relation.ReflTransGen objects.Nested node claims →
      Relation.TransGen objects.Nested node node →
        ∃ description, objects.chainObject claims = .error (.malformedChain description) := by
  refine ⟨fun _ => chains_iff, fun _ => chainObject_eq_ok, ?_, chainObject_refuses, ?_⟩
  · intro l hl
    obtain ⟨subject, actors, rfl, _, _, _, hfits⟩ := chainObject_eq_ok.mp hl
    have hcap : MAXIMUM_CHAIN_DEPTH = 32 := rfl
    rw [List.length_cons]
    omega
  · intro node hreached hcycle
    apply chainObject_refuses
    intro l
    exact not_wellFormed_of_cycle hreached hcycle

end Objects

end AgentOAuth
