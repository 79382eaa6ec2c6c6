import AgentOAuth.Model.Delegation

/-!
# Claims as objects

`src/services/delegation.py` once more, on the dictionaries the interpreter
holds.  `chain` remembers the objects it has passed, and `nest` puts a
reference to the `act` object of the subject into a new one; neither can be
said of values.

`Denotes` relates an object to the claims it stands for.  Claims are finite, so
no object that denotes any is reached from itself, and the check for a chain
that refers to itself never fires (`chainObject_eq`).  `nestObject_of_ok` says that
`nest` adds one object and leaves all others as they are.
-/

namespace AgentOAuth

/-- What an entry of an object holds: another object, as every dictionary is one,
or a value that is no dictionary. -/
inductive Slot
  | object (reference : ℕ)
  | value (v : Value)

/-- The dictionaries of the interpreter; `id(d)` is the place of `d`. -/
abbrev Objects := List (List (String × Slot))

namespace Objects

/-- `fields.get(name)`. -/
def slot (fields : List (String × Slot)) (name : String) : Slot :=
  (List.lookup name fields).getD (.value .null)

/-- `d.get(name)`. -/
def get (objects : Objects) (reference : ℕ) (name : String) : Slot :=
  slot ((objects[reference]?).getD []) name

/-- A new dictionary. -/
def alloc (objects : Objects) (fields : List (String × Slot)) : ℕ × Objects :=
  (objects.length, objects ++ [fields])

/-- The loop of `chain`: `seen` are the objects passed so far, and `remaining`
more identities fit under the cap. -/
def walkObject (objects : Objects) : List ℕ → ℕ → Slot → List String → Except Exc (List String)
  | _, _, .value .null, identities => .ok identities
  | seen, remaining, .object node, identities =>
      if node ∈ seen then .error (.malformedChain "act chain refers to itself")
      else
        match objects.get node "sub" with
        | .value (.str actor) =>
            if actor = "" then .error (.malformedChain "an act entry has no subject")
            else
              match remaining with
              | 0 => .error (.malformedChain "act chain is too deep to read")
              | rest + 1 =>
                  walkObject objects (node :: seen) rest (objects.get node ACT_CLAIM)
                    (identities ++ [actor])
        | _ => .error (.malformedChain "an act entry has no subject")
  | _, _, _, _ => .error (.malformedChain "act must be an object")

/-- `chain(claims)`. -/
def chainObject (objects : Objects) (claims : ℕ) : Except Exc (List String) :=
  match objects.get claims "sub" with
  | .value (.str subject) =>
      if subject = "" then .error (.malformedChain "token has no subject")
      else
        walkObject objects [claims] (MAXIMUM_CHAIN_DEPTH - 1) (objects.get claims ACT_CLAIM) [subject]
  | _ => .error (.malformedChain "token has no subject")

/-- `nest(subject_claims)`: the new object, and the objects there are then. -/
def nestObject (objects : Objects) (subjectClaims : ℕ) : Except Exc (ℕ × Objects) :=
  match objects.get subjectClaims "sub" with
  | .value (.str subject) =>
      if subject = "" then .error (.malformedChain "subject token has no subject")
      else
        match objects.get subjectClaims ACT_CLAIM with
        | .value .null => .ok (objects.alloc [("sub", .value (.str subject))])
        | .object existing =>
            .ok (objects.alloc [("sub", .value (.str subject)), (ACT_CLAIM, .object existing)])
        | _ => .error (.malformedChain "act must be an object")
  | _ => .error (.malformedChain "subject token has no subject")

/-! ## The claims an object stands for -/

/-- An object stands for a dictionary when its entries do, name by name. -/
inductive Denotes (objects : Objects) : Slot → Value → Prop
  | value {v : Value} : (∀ d, v ≠ .dict d) → Denotes objects (.value v) v
  | object {reference : ℕ} {fields : List (String × Slot)} {d : Dict} :
      objects[reference]? = some fields →
        (∀ name, Denotes objects (slot fields name) (Dict.get d name)) →
          Denotes objects (.object reference) (.dict d)

variable {objects : Objects} {reference : ℕ} {d : Dict}

theorem Denotes.get (h : Denotes objects (.object reference) (.dict d)) (name : String) :
    Denotes objects (objects.get reference name) (Dict.get d name) := by
  cases h with
  | object hfields hentries =>
      rw [Objects.get, hfields, Option.getD_some]
      exact hentries name

/-- Only an object stands for a dictionary. -/
theorem Denotes.exists_object {s : Slot} (h : Denotes objects s (.dict d)) :
    ∃ reference, s = .object reference := by
  cases h with
  | value hnot => exact absurd rfl (hnot d)
  | object => exact ⟨_, rfl⟩

/-- What an object stands for does not change when objects are added. -/
theorem Denotes.append {s : Slot} {v : Value} (h : Denotes objects s v) (added : Objects) :
    Denotes (objects ++ added) s v := by
  induction h with
  | value hnot => exact .value hnot
  | object hfields _ ih =>
      obtain ⟨hlt, _⟩ := List.getElem?_eq_some_iff.mp hfields
      exact .object (by rw [List.getElem?_append_left hlt, hfields]) ih

/-! ## No chain refers to itself -/

/-- `below` is the `act` object of `above`. -/
def Nested (objects : Objects) (below above : ℕ) : Prop :=
  objects.get above ACT_CLAIM = .object below

theorem Denotes.acc {s : Slot} {v : Value} (h : Denotes objects s v) :
    ∀ reference, s = .object reference → Acc objects.Nested reference := by
  induction h with
  | value => intro reference hs; cases hs
  | @object node fields d hfields _ ih =>
      rintro _ ⟨⟩
      refine .intro _ fun below hbelow => ?_
      apply ih ACT_CLAIM below
      rw [← hbelow, Objects.get, hfields, Option.getD_some]

theorem not_rel_self {α : Type} {r : α → α → Prop} {a : α} (h : Acc r a) : ¬ r a a := by
  induction h with
  | intro a _ ih => exact fun haa => ih a haa haa

/-- The invariant of the walk: what it has seen is above the slot it has come to. -/
def SeenAbove (objects : Objects) (seen : List ℕ) (s : Slot) : Prop :=
  ∀ node, s = .object node → ∀ passed ∈ seen, Relation.TransGen objects.Nested node passed

theorem seenAbove_start (objects : Objects) (claims : ℕ) :
    objects.SeenAbove [claims] (objects.get claims ACT_CLAIM) := by
  intro below hbelow passed hpassed
  obtain rfl := List.mem_singleton.mp hpassed
  exact .single hbelow

/-- The next object is below this one, and so below all that were passed. -/
theorem SeenAbove.next {seen : List ℕ} {node : ℕ} (h : objects.SeenAbove seen (.object node)) :
    objects.SeenAbove (node :: seen) (objects.get node ACT_CLAIM) := by
  intro below hbelow passed hpassed
  have hstep : Relation.TransGen objects.Nested below node := .single hbelow
  rcases List.mem_cons.mp hpassed with rfl | hpassed
  · exact hstep
  · exact hstep.trans (h node rfl passed hpassed)

/-- An object below which `act` ends is not one of those above it. -/
theorem SeenAbove.notMem {seen : List ℕ} {node : ℕ} (h : objects.SeenAbove seen (.object node))
    (hacc : Acc objects.Nested node) : node ∉ seen := by
  intro hmem
  exact not_rel_self hacc.transGen (h node rfl node hmem)

/-- An entry is a string exactly when it stands for it. -/
theorem Denotes.eq_str_iff {s : Slot} {v : Value} (h : Denotes objects s v) {text : String} :
    s = .value (.str text) ↔ v = .str text := by
  cases h <;> simp

theorem Denotes.eq_null_iff {s : Slot} {v : Value} (h : Denotes objects s v) :
    s = .value .null ↔ v = .null := by
  cases h <;> simp

/-- The subject of an object is that of the claims. -/
theorem Denotes.sub_eq_iff (h : Denotes objects (.object reference) (.dict d)) {text : String} :
    objects.get reference "sub" = .value (.str text) ↔ Dict.get d "sub" = .str text :=
  (h.get "sub").eq_str_iff

theorem walkObject_eq {remaining : ℕ} {s : Slot} {v : Value} (h : Denotes objects s v)
    {seen : List ℕ} (identities : List String) (hseen : objects.SeenAbove seen s) :
    objects.walkObject seen remaining s identities = walk remaining v identities := by
  induction remaining generalizing s v seen identities with
  | zero =>
      cases h with
      | value hnot => cases v <;> simp_all [walkObject, walk]
      | @object node _ d hfields hentries =>
          have hdict : Denotes objects (.object node) (.dict d) := .object hfields hentries
          rw [walkObject, if_neg (hseen.notMem (hdict.acc node rfl)), walk]
          split
          · next actor hactor => rw [hdict.sub_eq_iff.mp hactor]
          · next hnot =>
              split
              · next actor hactor => exact absurd (hdict.sub_eq_iff.mpr hactor) (hnot actor)
              · rfl
  | succ rest ih =>
      cases h with
      | value hnot => cases v <;> simp_all [walkObject, walk]
      | @object node _ d hfields hentries =>
          have hdict : Denotes objects (.object node) (.dict d) := .object hfields hentries
          rw [walkObject, if_neg (hseen.notMem (hdict.acc node rfl)), walk]
          split
          · next actor hactor =>
              rw [hdict.sub_eq_iff.mp hactor]
              simp only
              rw [ih (hdict.get ACT_CLAIM) _ hseen.next]
          · next hnot =>
              split
              · next actor hactor => exact absurd (hdict.sub_eq_iff.mpr hactor) (hnot actor)
              · rfl

/-- **`chain` reads an object as it reads the claims**: it never meets an object
twice. -/
theorem chainObject_eq (h : Denotes objects (.object reference) (.dict d)) :
    objects.chainObject reference = chain d := by
  unfold chainObject chain
  split
  · next subject hsubject =>
      rw [h.sub_eq_iff.mp hsubject]
      simp only
      rw [walkObject_eq (h.get ACT_CLAIM) _ (seenAbove_start objects reference)]
  · next hnot =>
      split
      · next subject hsubject => exact absurd (h.sub_eq_iff.mpr hsubject) (hnot subject)
      · rfl

/-! ## What `nest` does to the objects -/

theorem slot_cons (k name : String) (s : Slot) (rest : List (String × Slot)) :
    slot ((k, s) :: rest) name = if name = k then s else slot rest name := by
  unfold slot
  by_cases h : name = k
  · subst h
    simp
  · rw [List.lookup_cons, beq_false_of_ne h, if_neg h]

theorem denotes_str (objects : Objects) (text : String) :
    Denotes objects (.value (.str text)) (.str text) :=
  .value fun _ => Value.noConfusion

theorem denotes_null (objects : Objects) : Denotes objects (.value .null) .null :=
  .value fun _ => Value.noConfusion

/-- A new object stands for what its entries stand for. -/
theorem denotes_alloc {fields : List (String × Slot)}
    (h : ∀ name, Denotes (objects ++ [fields]) (slot fields name) (Dict.get d name)) :
    Denotes (objects ++ [fields]) (.object objects.length) (.dict d) :=
  .object (by simp) h

/-- **`nest` adds one object and changes none.**  It succeeds on an object as it
does on the claims, and the new object stands for the nested ones. -/
theorem nestObject_of_ok (h : Denotes objects (.object reference) (.dict d)) {act : Dict}
    (hnest : nest d = .ok act) :
    ∃ added, objects.nestObject reference = .ok (objects.length, objects ++ [added]) ∧
      Denotes (objects ++ [added]) (.object objects.length) (.dict act) := by
  unfold nest at hnest
  split at hnest
  · next subject hsubject =>
      split at hnest
      · simp at hnest
      · next hne =>
          rw [nestObject, h.sub_eq_iff.mpr hsubject]
          simp only [hne, if_false]
          split at hnest
          · next hact =>
              obtain rfl := Except.ok.inj hnest
              rw [(h.get ACT_CLAIM).eq_null_iff.mpr hact]
              refine ⟨_, rfl, denotes_alloc fun name => ?_⟩
              rw [slot_cons, Dict.get_cons]
              split
              · exact denotes_str _ subject
              · exact denotes_null _
          · next existing hact =>
              obtain rfl := Except.ok.inj hnest
              have hexisting := h.get ACT_CLAIM
              rw [hact] at hexisting
              obtain ⟨inner, hinner⟩ := hexisting.exists_object
              rw [hinner]
              refine ⟨_, rfl, denotes_alloc fun name => ?_⟩
              rw [slot_cons, Dict.get_cons, slot_cons, Dict.get_cons]
              split
              · exact denotes_str _ subject
              · split
                · rw [← hinner]
                  exact hexisting.append _
                · exact denotes_null _
          · simp at hnest
  · simp at hnest

theorem nestObject_of_error (h : Denotes objects (.object reference) (.dict d)) {e : Exc}
    (hnest : nest d = .error e) : objects.nestObject reference = .error e := by
  have hact := h.get ACT_CLAIM
  unfold nest at hnest
  unfold nestObject
  split at hnest
  · next subject hsubject =>
      rw [h.sub_eq_iff.mpr hsubject]
      simp only
      split at hnest
      · next hempty =>
          obtain rfl := Except.error.inj hnest
          rw [if_pos hempty]
      · next hne =>
          rw [if_neg hne]
          split at hnest
          · simp at hnest
          · simp at hnest
          · next hnull hdict =>
              revert hact hnull hdict
              generalize objects.get reference ACT_CLAIM = s
              generalize Dict.get d ACT_CLAIM = v
              intro hact hnull hdict
              obtain rfl := Except.error.inj hnest
              cases hact with
              | value hnot => cases v <;> simp_all
              | object => simp_all
  · next hnot =>
      split
      · next subject hsubject => exact absurd (h.sub_eq_iff.mp hsubject) (hnot subject)
      · obtain rfl := Except.error.inj hnest
        rfl

end Objects

end AgentOAuth
