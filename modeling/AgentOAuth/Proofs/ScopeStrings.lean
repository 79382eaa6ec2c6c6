import AgentOAuth.Model.ResourceServer
import AgentOAuth.Proofs.Issue

/-!
# Scope strings there and back

A granted tuple is joined with single spaces, written into a token, and split
again by the next exchange and by the resource server.  What comes back is the
tuple that was granted: every member was once split off a scope string, so it
is a word, and neither filtering nor sorting makes a word of anything else.  A
registered scope that holds a space is no word and is never granted.
-/

namespace AgentOAuth

variable {scopes requested granted : List String} {ceilings : List (Finset String)}

/-- The entry `issue` writes for a scope string: none when it is empty. -/
def HoldsScope (claims : Dict) (scope : String) : Prop :=
  claims.lookup "scope" = if scope = "" then none else some (.str scope)

/-- Everybody who reads the scope string of a tuple reads the tuple. -/
structure RoundTrips (scopes : List String) : Prop where
  nodup : scopes.Nodup
  parse : parseScope (some (joinSpaces scopes)) = scopes
  exchange : ∀ claims, HoldsScope claims (joinSpaces scopes) →
    parseScopeClaim (Dict.get claims "scope") = .ok scopes
  resourceServer : ∀ interpreter claims, HoldsScope claims (joinSpaces scopes) →
    scopesOf interpreter claims = scopes.toFinset ∧
      ∀ requiredScope, requireScope interpreter claims requiredScope = .ok () ↔
        requiredScope ∈ scopes

/-! ## Words come back -/

theorem parse_of_holdsScope {claims : Dict} (hwords : ∀ s ∈ scopes, IsWord s)
    (hnodup : scopes.Nodup) (hclaims : HoldsScope claims (joinSpaces scopes)) :
    parseScopeClaim (Dict.get claims "scope") = .ok scopes := by
  rw [Dict.get, hclaims]
  split
  · next hempty =>
      rw [(joinSpaces_eq_empty_iff hwords).mp hempty]
      rfl
  · exact congrArg Except.ok (parseScope_joinSpaces hwords hnodup)

theorem scopesOf_of_holdsScope {interpreter : Interpreter} {claims : Dict}
    (hwords : ∀ s ∈ scopes, IsWord s) (hclaims : HoldsScope claims (joinSpaces scopes)) :
    scopesOf interpreter claims = scopes.toFinset := by
  have hread : interpreter.str ((claims.lookup "scope").getD (.str "")) = joinSpaces scopes := by
    rw [hclaims]
    split
    · next hempty => rw [Option.getD_none, interpreter.str_str, hempty]
    · rw [Option.getD_some, interpreter.str_str]
  rw [scopesOf, hread, split_joinSpaces hwords]

/-- Words without repetitions survive the scope string. -/
theorem roundTrips_of_words (hwords : ∀ s ∈ scopes, IsWord s) (hnodup : scopes.Nodup) :
    RoundTrips scopes := by
  refine ⟨hnodup, parseScope_joinSpaces hwords hnodup, ?_, ?_⟩
  · intro claims hclaims
    exact parse_of_holdsScope hwords hnodup hclaims
  · intro interpreter claims hclaims
    have hscopes : scopesOf interpreter claims = scopes.toFinset :=
      scopesOf_of_holdsScope hwords hclaims
    refine ⟨hscopes, fun requiredScope => ?_⟩
    rw [requireScope_eq_ok, hscopes, List.mem_toFinset]

/-! ## Where the words come from -/

/-- `attenuate` only drops scopes. -/
theorem roundTrips_of_attenuate (hwords : ∀ s ∈ requested, IsWord s) (hnodup : requested.Nodup)
    (hgranted : attenuate requested ceilings = .ok granted) : RoundTrips granted := by
  obtain ⟨rfl, _⟩ := attenuate_eq_ok.mp hgranted
  apply roundTrips_of_words
  · intro scope hscope
    exact hwords scope (mem_allowedBy.mp hscope).1
  · exact hnodup.filter _

theorem isWord_of_mem_sorted_parseScope {value : Option String} {scope : String}
    (h : scope ∈ sorted (parseScope value)) : IsWord scope := by
  apply isWord_of_mem_parseScope
  exact mem_sorted.mp h

/-! ## The tokens of the server -/

/-- The entry is still the one `issue` wrote once the claims are signed. -/
theorem IssuancePipeline.Prepared.holdsScope {pipeline : IssuancePipeline} {moment : Moment}
    {result : GrantResult} {y : IssuancePipeline.Issuance}
    (h : IssuancePipeline.Prepared pipeline moment result y)
    (hextra : "scope" ∉ Dict.keys result.extraClaims) :
    HoldsScope (signedPayload y.minted.claims) y.scope := by
  have hwritten : HoldsScope (pipeline.claims result result.subject y.scope) y.scope := by
    rw [HoldsScope, IssuancePipeline.claims, Dict.lookup_update_of_notMem hextra]
    simp only [Dict.lookup_setSome, TENANT_CLAIM, TASK_CLAIM, ACT_CLAIM, String.reduceEq, if_false,
      if_true]
    split <;> simp [Dict.lookup_cons, DEPTH_CLAIM]
  have hminted : List.lookup "scope" y.minted.claims =
      List.lookup "scope" (pipeline.claims result result.subject y.scope) :=
    TokenMinter.lookup_of_mint h.minted (IssuancePipeline.nodup_keys_claims _ _ _ _) (by decide)
  rw [HoldsScope, lookup_signedPayload, hminted, hwritten]
  split <;> simp

theorem Server.Succeeds.roundTrips {server : Server} {s : ServerState} {moment : Moment}
    {request : Request} {x : Server.Success} (h : server.Succeeds moment request s x) :
    RoundTrips x.issuance.grantedScopes ∧
      HoldsScope x.payload (joinSpaces x.issuance.grantedScopes) := by
  obtain ⟨hwords, hnodup⟩ := h.requestedScopes_words
  constructor
  · exact roundTrips_of_attenuate hwords hnodup h.prepared.granted
  · apply h.prepared.holdsScope
    rw [h.extraClaims_eq]
    exact List.not_mem_nil

/-- **Scope strings round-trip through tokens.**  Whatever is asked for and
whatever ceilings there are, the granted tuple, the parsed one and the sorted
default come back from their scope strings with the same members in the same
order, and every token of the server carries the string of what was granted. -/
theorem scope_strings_round_trip (value : Option String) (ceilings : List (Finset String)) :
    (∀ granted, attenuate (parseScope value) ceilings = .ok granted → RoundTrips granted) ∧
    RoundTrips (parseScope value) ∧
    RoundTrips (sorted (parseScope value)) ∧
    (∀ granted, attenuate (sorted (parseScope value)) ceilings = .ok granted →
      RoundTrips granted) ∧
    ∀ server moment request s x, Server.Succeeds server moment request s x →
      RoundTrips x.issuance.grantedScopes ∧
        HoldsScope x.payload (joinSpaces x.issuance.grantedScopes) := by
  have hwords : ∀ scope ∈ parseScope value, IsWord scope := fun _ => isWord_of_mem_parseScope
  have hnodup : (parseScope value).Nodup := parseScope_nodup value
  have hsorted : ∀ scope ∈ sorted (parseScope value), IsWord scope := fun _ =>
    isWord_of_mem_sorted_parseScope
  refine ⟨?_, ?_, ?_, ?_, ?_⟩
  · intro granted hgranted
    exact roundTrips_of_attenuate hwords hnodup hgranted
  · exact roundTrips_of_words hwords hnodup
  · exact roundTrips_of_words hsorted (sorted_nodup hnodup)
  · intro granted hgranted
    exact roundTrips_of_attenuate hsorted (sorted_nodup hnodup) hgranted
  · intro server moment request s x hx
    exact hx.roundTrips

end AgentOAuth
