import AgentOAuth.Model.Errors
import AgentOAuth.Model.Text
import Mathlib.Data.Finset.Basic

/-!
# Scope strings and attenuation

`src/services/scopes.py`.  A scope string is read into a tuple without
repetitions, and `attenuate` filters a requested tuple through every ceiling.
The refusal that runs before the intersection never changes the outcome
(`attenuate_eq`): an empty ceiling empties the intersection anyway.
-/

namespace AgentOAuth

open Words

/-- `parse_scope(value)`. -/
def parseScope : Option String → List String
  | none => []
  | some value => if strip value = "" then [] else keepFirst (split value)

/-- `parse_scope` of a claim, which may hold any value. -/
def parseScopeClaim : Value → Except Exc (List String)
  | .null => .ok (parseScope none)
  | .str value => .ok (parseScope (some value))
  | _ => .error (.python "AttributeError")

/-- The refusal of `attenuate` when nothing is left. -/
def noScopeAllowed : Exc :=
  .oauth "invalid_scope" "none of the requested scopes are allowed" 400

/-- `attenuate(requested, *ceilings)`. -/
def attenuate (requested : List String) (ceilings : List (Finset String)) :
    Except Exc (List String) :=
  if requested = [] then .ok []
  else if ceilings.any (fun ceiling => ceiling = ∅) then .error noScopeAllowed
  else
    let granted := requested.filter fun scope => ceilings.all (fun ceiling => scope ∈ ceiling)
    if granted = [] then .error noScopeAllowed else .ok granted

/-! ## Parsing -/

theorem parseScope_some (value : String) : parseScope (some value) = keepFirst (split value) := by
  rw [parseScope]
  split
  · next h => rw [split_eq_nil_of_strip h]; rfl
  · rfl

theorem isWord_of_mem_parseScope {value : Option String} {scope : String}
    (h : scope ∈ parseScope value) : IsWord scope := by
  cases value with
  | none => simp [parseScope] at h
  | some value =>
      rw [parseScope_some, mem_keepFirst] at h
      exact isWord_of_mem_split h

theorem parseScope_nodup (value : Option String) : (parseScope value).Nodup := by
  cases value with
  | none => exact List.nodup_nil
  | some value => rw [parseScope_some]; exact keepFirst_nodup _

theorem parseScopeClaim_words {value : Value} {scopes : List String}
    (h : parseScopeClaim value = .ok scopes) : (∀ scope ∈ scopes, IsWord scope) ∧ scopes.Nodup := by
  unfold parseScopeClaim at h
  split at h
  · obtain rfl := Except.ok.inj h
    exact ⟨fun _ => isWord_of_mem_parseScope, parseScope_nodup _⟩
  · obtain rfl := Except.ok.inj h
    exact ⟨fun _ => isWord_of_mem_parseScope, parseScope_nodup _⟩
  · simp at h

/-- Reading back a joined tuple of words without repetitions. -/
theorem parseScope_joinSpaces {scopes : List String} (hwords : ∀ s ∈ scopes, IsWord s)
    (hnodup : scopes.Nodup) : parseScope (some (joinSpaces scopes)) = scopes := by
  rw [parseScope_some, split_joinSpaces hwords, keepFirst_of_nodup hnodup]

/-! ## Attenuation -/

/-- The scopes of the request that every ceiling has. -/
def allowedBy (ceilings : List (Finset String)) (requested : List String) : List String :=
  requested.filter fun scope => ceilings.all (fun ceiling => scope ∈ ceiling)

theorem mem_allowedBy {ceilings : List (Finset String)} {requested : List String} {s : String} :
    s ∈ allowedBy ceilings requested ↔ s ∈ requested ∧ ∀ ceiling ∈ ceilings, s ∈ ceiling := by
  simp [allowedBy]

theorem allowedBy_eq_nil_of_empty_ceiling {ceilings : List (Finset String)}
    (h : ceilings.any (fun ceiling => ceiling = ∅) = true) (requested : List String) :
    allowedBy ceilings requested = [] := by
  obtain ⟨ceiling, hmem, hempty⟩ := List.any_eq_true.mp h
  rw [List.eq_nil_iff_forall_not_mem]
  intro s hs
  have := (mem_allowedBy.mp hs).2 ceiling hmem
  simp_all

theorem attenuate_eq (requested : List String) (ceilings : List (Finset String)) :
    attenuate requested ceilings =
      if requested ≠ [] ∧ allowedBy ceilings requested = [] then .error noScopeAllowed
      else .ok (allowedBy ceilings requested) := by
  by_cases hreq : requested = []
  · subst hreq
    simp [attenuate, allowedBy]
  · by_cases hceil : ceilings.any (fun ceiling => ceiling = ∅) = true
    · rw [attenuate, if_neg hreq, if_pos hceil,
        if_pos ⟨hreq, allowedBy_eq_nil_of_empty_ceiling hceil requested⟩]
    · rw [attenuate, if_neg hreq, if_neg hceil]
      simp [hreq, allowedBy]

theorem attenuate_eq_ok {requested granted : List String} {ceilings : List (Finset String)} :
    attenuate requested ceilings = .ok granted ↔
      granted = allowedBy ceilings requested ∧ (requested = [] ∨ granted ≠ []) := by
  rw [attenuate_eq]
  split
  · next h =>
      simp only [reduceCtorEq, false_iff]
      rintro ⟨rfl, hnil | hne⟩
      · exact h.1 hnil
      · exact hne h.2
  · next h =>
      simp only [Except.ok.injEq]
      constructor
      · rintro rfl
        exact ⟨rfl, by tauto⟩
      · rintro ⟨rfl, _⟩
        rfl

/-- The one way `attenuate` refuses, and exactly when. -/
theorem attenuate_eq_error {requested : List String} {ceilings : List (Finset String)} {e : Exc} :
    attenuate requested ceilings = .error e ↔
      e = noScopeAllowed ∧ requested ≠ [] ∧ allowedBy ceilings requested = [] := by
  rw [attenuate_eq]
  split
  · next h =>
      simp only [Except.error.injEq]
      exact ⟨fun he => ⟨he.symm, h⟩, fun he => he.1.symm⟩
  · next h =>
      simp only [reduceCtorEq, false_iff]
      exact fun he => h he.2

end AgentOAuth
