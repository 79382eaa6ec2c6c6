import AgentOAuth.Model.Pipeline

/-!
# Ceilings, many and none

`attenuate` takes any number of ceilings.  Applying them in groups, one group
after the other, is the same as applying all of them at once, and only the set
of ceilings matters (`attenuation_composes`).

With no ceiling at all there is nothing to intersect with, and `attenuate`
returns the request as it is.  The rule that an absent policy grants nothing
therefore holds exactly where a ceiling is supplied or nothing is asked for
(`absent_policy_iff`).  Both grants of the server supply one or two ceilings.
-/

namespace AgentOAuth

variable {requested granted : List String} {ceilings first second : List (Finset String)}

/-! ## Several ceilings -/

theorem allowedBy_append (first second : List (Finset String)) (requested : List String) :
    allowedBy (first ++ second) requested = allowedBy second (allowedBy first requested) := by
  unfold allowedBy
  rw [List.filter_filter]
  apply List.filter_congr
  intro scope _
  rw [List.all_append, Bool.and_comm]

/-- Neither order nor repetition of the ceilings matters. -/
theorem allowedBy_congr (h : ∀ ceiling, ceiling ∈ first ↔ ceiling ∈ second)
    (requested : List String) : allowedBy first requested = allowedBy second requested := by
  unfold allowedBy
  apply List.filter_congr
  intro scope _
  rw [Bool.eq_iff_iff, List.all_eq_true, List.all_eq_true]
  simp only [h]

theorem allowedBy_nil (ceilings : List (Finset String)) : allowedBy ceilings [] = [] := rfl

theorem allowedBy_no_ceiling (requested : List String) : allowedBy [] requested = requested :=
  List.filter_eq_self.mpr fun _ _ => rfl

/-- **A second group of ceilings takes over where the first one stopped.**  An
empty result of the first group comes from an empty request, so it is not
mistaken for a refusal. -/
theorem attenuate_append (requested : List String) (first second : List (Finset String)) :
    attenuate requested (first ++ second) =
      attenuate requested first >>= fun granted => attenuate granted second := by
  cases hfirst : attenuate requested first with
  | error e =>
      obtain ⟨rfl, hasked, hnone⟩ := attenuate_eq_error.mp hfirst
      apply attenuate_eq_error.mpr
      refine ⟨rfl, hasked, ?_⟩
      rw [allowedBy_append, hnone, allowedBy_nil]
  | ok granted =>
      obtain ⟨rfl, hleft⟩ := attenuate_eq_ok.mp hfirst
      have hasked : requested ≠ [] ↔ allowedBy first requested ≠ [] := by
        constructor
        · intro hne
          exact hleft.resolve_left hne
        · rintro hne rfl
          exact hne (allowedBy_nil first)
      show _ = attenuate (allowedBy first requested) second
      rw [attenuate_eq, attenuate_eq, allowedBy_append]
      simp only [hasked]

theorem attenuate_congr (h : ∀ ceiling, ceiling ∈ first ↔ ceiling ∈ second)
    (requested : List String) : attenuate requested first = attenuate requested second := by
  rw [attenuate_eq, attenuate_eq, allowedBy_congr h]

/-- One hop after the other. -/
theorem foldlM_attenuate (hops : List (List (Finset String))) (requested : List String) :
    hops.foldlM attenuate requested = attenuate requested hops.flatten := by
  induction hops generalizing requested with
  | nil =>
      rw [List.foldlM_nil, List.flatten_nil, attenuate_eq, allowedBy_no_ceiling]
      simp [pure, Except.pure]
  | cons hop rest ih =>
      rw [List.foldlM_cons, List.flatten_cons, attenuate_append]
      simp only [ih]

/-- **Attenuation composes.**  Two groups of ceilings at once have the outcome
of one after the other, refusals included; a group may be permuted and repeat
its members; and any number of hops is one intersection with all ceilings. -/
theorem attenuation_composes (requested : List String) (a b : List (Finset String)) :
    attenuate requested (a ++ b) =
        (attenuate requested a >>= fun granted => attenuate granted b) ∧
      (∀ other : List (Finset String), (∀ ceiling, ceiling ∈ other ↔ ceiling ∈ a) →
        attenuate requested other = attenuate requested a) ∧
      ∀ hops : List (List (Finset String)),
        hops.foldlM attenuate requested = attenuate requested hops.flatten :=
  ⟨attenuate_append requested a b, fun _ h => attenuate_congr h requested,
    fun hops => foldlM_attenuate hops requested⟩

/-! ## No ceiling -/

/-- Every scope that is returned is backed by some ceiling and by every ceiling. -/
def BackedByPolicy (requested : List String) (ceilings : List (Finset String)) : Prop :=
  ∀ granted, attenuate requested ceilings = .ok granted → ∀ scope ∈ granted,
    (∃ ceiling ∈ ceilings, scope ∈ ceiling) ∧ ∀ ceiling ∈ ceilings, scope ∈ ceiling

/-- A request of which no ceiling backs any scope is refused for the scope. -/
def RefusedUnbacked (pipeline : IssuancePipeline) (moment : Moment) (result : GrantResult)
    (s : ServerState) : Prop :=
  result.requestedScopes ≠ [] →
    (∀ scope ∈ result.requestedScopes, ∀ ceiling ∈ result.ceilings, scope ∉ ceiling) →
      ∃ e t, (pipeline.issue moment result).run s = .error e t ∧ e.error? = some "invalid_scope"

theorem backedByPolicy_iff : BackedByPolicy requested ceilings ↔ requested = [] ∨ ceilings ≠ [] := by
  constructor
  · intro hbacked
    by_contra hnot
    rw [not_or, not_not] at hnot
    obtain ⟨hasked, rfl⟩ := hnot
    obtain ⟨scope, hscope⟩ := List.exists_mem_of_ne_nil requested hasked
    have hreturned : attenuate requested [] = .ok requested :=
      attenuate_eq_ok.mpr ⟨(allowedBy_no_ceiling requested).symm, .inr hasked⟩
    obtain ⟨⟨_, hnone, _⟩, _⟩ := hbacked requested hreturned scope hscope
    exact List.not_mem_nil hnone
  · intro h granted hgranted scope hscope
    obtain ⟨rfl, _⟩ := attenuate_eq_ok.mp hgranted
    obtain ⟨hasked, hall⟩ := mem_allowedBy.mp hscope
    refine ⟨?_, hall⟩
    rcases h with rfl | hsome
    · exact absurd hasked List.not_mem_nil
    · obtain ⟨ceiling, hceiling⟩ := List.exists_mem_of_ne_nil ceilings hsome
      exact ⟨ceiling, hceiling, hall ceiling hceiling⟩

theorem refusedUnbacked_iff {pipeline : IssuancePipeline} {moment : Moment} {result : GrantResult}
    {s : ServerState} (hactive : result.principalStatus = .active) :
    RefusedUnbacked pipeline moment result s ↔
      result.requestedScopes = [] ∨ result.ceilings ≠ [] := by
  unfold RefusedUnbacked
  rw [IssuancePipeline.issue_invalid_scope]
  constructor
  · intro hrefused
    by_contra hnot
    rw [not_or, not_not] at hnot
    obtain ⟨hasked, hnone⟩ := hnot
    obtain ⟨_, _, hempty⟩ := hrefused hasked (by simp [hnone])
    rw [hnone, allowedBy_no_ceiling] at hempty
    exact hasked hempty
  · intro h hasked hunbacked
    refine ⟨hactive, hasked, ?_⟩
    obtain ⟨ceiling, hceiling⟩ := List.exists_mem_of_ne_nil _ (h.resolve_left hasked)
    rw [List.eq_nil_iff_forall_not_mem]
    intro scope hscope
    obtain ⟨hmem, hall⟩ := mem_allowedBy.mp hscope
    exact hunbacked scope hmem ceiling hceiling (hall ceiling hceiling)

/-- **When an absent policy grants nothing.**  What `attenuate` returns is
backed by a ceiling exactly when a ceiling is supplied or nothing is asked for,
and exactly then the pipeline refuses an active principal's request that no
ceiling backs. -/
theorem absent_policy_iff (requested : List String) (ceilings : List (Finset String)) :
    (BackedByPolicy requested ceilings ↔ requested = [] ∨ ceilings ≠ []) ∧
      ∀ (pipeline : IssuancePipeline) (moment : Moment) (result : GrantResult) (s : ServerState),
        result.principalStatus = .active →
          (RefusedUnbacked pipeline moment result s ↔
            result.requestedScopes = [] ∨ result.ceilings ≠ []) :=
  ⟨backedByPolicy_iff, fun _ _ _ _ hactive => refusedUnbacked_iff hactive⟩

/-- Without a ceiling the whole request is granted. -/
theorem unbacked_scope_returned :
    attenuate ["finance:read"] [] = .ok ["finance:read"] ∧ ¬ BackedByPolicy ["finance:read"] [] := by
  refine ⟨rfl, fun hbacked => ?_⟩
  obtain ⟨⟨_, hnone, _⟩, _⟩ := hbacked ["finance:read"] rfl "finance:read" (by simp)
  exact List.not_mem_nil hnone

end AgentOAuth
