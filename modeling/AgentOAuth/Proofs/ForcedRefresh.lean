import AgentOAuth.Proofs.VerifierParity

/-!
# Forced refreshes and their rate limit

A token under a `kid` that is not cached makes the verifier fetch the keys again,
at most once in an interval.  `_refresh` moves the limit when a fetch has
succeeded and on no other way out, so the limit holds after a forced fetch that
succeeded; after one that failed the next token forces another one at once.

`watching` runs `validate` on any tokens against any authorization server and
keeps a record of the forced fetches.  They are an interval apart in exactly the
runs in which every forced fetch keeps its distance from those that failed
(`forced_fetches_spaced`).
-/

namespace AgentOAuth

open Effect Transition

/-- A forced refresh that made its requests. -/
structure ForcedFetch where
  now : ℚ
  succeeded : Bool
  deriving DecidableEq

/-- A token to validate, and what the call meets. -/
structure ValidateCall where
  accessToken : String
  now : ℚ
  visit : Visit

/-- The verifier's cache, the last reading of the monotonic clock, and the
forced fetches so far, newest first. -/
structure Watch where
  cache : KeyCache := {}
  clock : ℚ := 0
  forced : List ForcedFetch := []
  deriving DecidableEq

/-- The clock does not go back. -/
def Watch.Timely (w : Watch) (call : ValidateCall) : Prop :=
  w.clock ≤ call.visit.arrival ∧ call.visit.arrival ≤ call.visit.regular.now ∧
    call.visit.regular.now ≤ call.visit.regular.fetchedAt ∧
      call.visit.regular.fetchedAt ≤ call.visit.forced.now ∧
        call.visit.forced.now ≤ call.visit.forced.fetchedAt

instance (w : Watch) (call : ValidateCall) : Decidable (w.Timely call) :=
  inferInstanceAs (Decidable (_ ∧ _ ∧ _ ∧ _ ∧ _))

/-- Any two of the fetches are an interval apart. -/
def Spaced (interval : ℚ) (forced : List ForcedFetch) : Prop :=
  forced.Pairwise fun later earlier => earlier.now + interval ≤ later.now

namespace AuthorizationServerVerifier

variable {verifier : AuthorizationServerVerifier} {visit : Visit} {cache after : KeyCache}
  {accessToken kid : String} {now : ℚ} {fetch : ForcedFetch} {w : Watch} {call : ValidateCall}

/-- The forced refresh of `validate(access_token)`, if the call gets there and
the refresh goes on to its requests. -/
def forcedFetch (verifier : AuthorizationServerVerifier) (visit : Visit) (accessToken : String)
    (cache : KeyCache) : Option ForcedFetch :=
  match verifier.namedKey accessToken with
  | .error _ => none
  | .ok kid =>
      match (verifier.refreshIfNeeded visit).run cache with
      | .error _ _ => none
      | .ok _ between =>
          if (between.keysByKid.lookup kid).isSome ∨ Skips between true visit.forced.now then none
          else some {
            now := visit.forced.now
            succeeded := (verifier.fetchKeys visit.forced.get).isOk }

/-- A resource server that validates tokens one after the other. -/
def watching (verifier : AuthorizationServerVerifier) : System Watch ValidateCall where
  init w := w.cache = {} ∧ w.forced = []
  step w call :=
    if w.Timely call then
      some {
        cache := finalState ((verifier.validate call.visit call.now call.accessToken).run w.cache)
        clock := call.visit.forced.fetchedAt
        forced := (verifier.forcedFetch call.visit call.accessToken w.cache).toList ++ w.forced }
    else none

/-- A forced fetch of the call comes an interval after every earlier one that
failed. -/
def KeepsDistance (verifier : AuthorizationServerVerifier) (w : Watch) (call : ValidateCall) :
    Prop :=
  ∀ fetch, verifier.forcedFetch call.visit call.accessToken w.cache = some fetch →
    ∀ earlier ∈ w.forced, earlier.succeeded = false →
      earlier.now + verifier.forcedRefreshIntervalSeconds ≤ fetch.now

/-- The authorization server answers a forced fetch with usable keys. -/
def Answered (verifier : AuthorizationServerVerifier) (w : Watch) (call : ValidateCall) : Prop :=
  verifier.forcedFetch call.visit call.accessToken w.cache ≠ none →
    (verifier.fetchKeys call.visit.forced.get).isOk

/-! ## What one call does -/

/-- A refresh that raises leaves the cached keys and their expiry alone. -/
theorem refresh_error {force : Bool} {refreshed : Refresh} {e : ValidationExc}
    (h : (verifier.refresh force refreshed).run cache = .error e after) : after = cache := by
  rw [run_refresh] at h
  split at h
  · cases h
  · split at h
    · cases h
    · exact (EStateM.Result.error.inj h).2.symm

/-- `_refresh_if_needed` fills the cache or leaves it as it is. -/
theorem refreshIfNeeded_cases (verifier : AuthorizationServerVerifier) (visit : Visit)
    (cache : KeyCache) :
    finalState ((verifier.refreshIfNeeded visit).run cache) = cache ∨
      ∃ keys, finalState ((verifier.refreshIfNeeded visit).run cache) =
        verifier.filled keys visit.regular.fetchedAt := by
  rw [run_refreshIfNeeded, run_refresh]
  split
  · split
    · exact .inl rfl
    · cases verifier.fetchKeys visit.regular.get with
      | ok keys => exact .inr ⟨keys, rfl⟩
      | error e => exact .inl rfl
  · exact .inl rfl

/-- Past the lookup that misses, only the forced refresh changes the cache. -/
theorem finalState_keyFor_of_miss {between : KeyCache}
    (hbetween : (verifier.refreshIfNeeded visit).run cache = .ok () between)
    (hmiss : between.keysByKid.lookup kid = none) :
    finalState ((verifier.keyFor visit kid).run cache) =
      finalState ((verifier.refresh true visit.forced).run between) := by
  rw [keyFor, run_bind_of_ok hbetween, run_get_bind, hmiss]
  apply finalState_bind_of_keeps
  intro _
  refine keeps_get.bind fun again => ?_
  cases again.keysByKid.lookup kid with
  | none => exact keeps_throw _
  | some key => exact keeps_pure _

theorem finalState_keyFor_of_hit {between : KeyCache}
    (hbetween : (verifier.refreshIfNeeded visit).run cache = .ok () between)
    (hhit : (between.keysByKid.lookup kid).isSome) :
    finalState ((verifier.keyFor visit kid).run cache) = between := by
  obtain ⟨key, hkey⟩ := Option.isSome_iff_exists.mp hhit
  rw [keyFor, run_bind_of_ok hbetween, run_get_bind, hkey]
  rfl

/-- The forced fetch of a call that finds the cache `between` once it is fresh,
and the cache it leaves. -/
inductive Leaves (verifier : AuthorizationServerVerifier) (visit : Visit) (between : KeyCache) :
    Option ForcedFetch → KeyCache → Prop
  | quiet : Leaves verifier visit between none between
  | failed : between.earliestNextRefreshAt ≤ visit.forced.now →
      ¬ (verifier.fetchKeys visit.forced.get).isOk →
        Leaves verifier visit between (some ⟨visit.forced.now, false⟩) between
  | succeeded (keys : KeysByKid) : between.earliestNextRefreshAt ≤ visit.forced.now →
      verifier.fetchKeys visit.forced.get = .ok keys →
        Leaves verifier visit between (some ⟨visit.forced.now, true⟩)
          (verifier.filled keys visit.forced.fetchedAt)

/-- **What one call does**, whatever the token and the answers are. -/
theorem exists_leaves (verifier : AuthorizationServerVerifier) (visit : Visit) (now : ℚ)
    (accessToken : String) (cache : KeyCache) :
    ∃ between, (between = cache ∨ ∃ keys, between = verifier.filled keys visit.regular.fetchedAt) ∧
      verifier.Leaves visit between (verifier.forcedFetch visit accessToken cache)
        (finalState ((verifier.validate visit now accessToken).run cache)) := by
  have hregular := refreshIfNeeded_cases verifier visit cache
  unfold forcedFetch validate
  cases hnamed : verifier.namedKey accessToken with
  | error e => exact ⟨cache, .inl rfl, .quiet⟩
  | ok kid =>
      rw [run_lift_bind_of_ok rfl, finalState_bind_of_keeps fun _ => keeps_lift _]
      cases hbetween : (verifier.refreshIfNeeded visit).run cache with
      | error e between =>
          rw [hbetween] at hregular
          refine ⟨between, hregular, ?_⟩
          rw [keyFor, run_bind_eq_error.mpr (.inl hbetween)]
          exact .quiet
      | ok u between =>
          rw [hbetween] at hregular
          refine ⟨between, hregular, ?_⟩
          simp only
          -- only a key that is still missing forces a second fetch
          by_cases hhit : (between.keysByKid.lookup kid).isSome
          · rw [if_pos (.inl hhit), finalState_keyFor_of_hit hbetween hhit]
            exact .quiet
          rw [finalState_keyFor_of_miss hbetween (Option.not_isSome_iff_eq_none.mp hhit),
            run_refresh]
          by_cases hskips : Skips between true visit.forced.now
          · rw [if_pos (.inr hskips), if_pos hskips]
            exact .quiet
          rw [if_neg (not_or.mpr ⟨hhit, hskips⟩), if_neg hskips]
          have hnow : between.earliestNextRefreshAt ≤ visit.forced.now := not_lt.mp hskips
          cases hfetch : verifier.fetchKeys visit.forced.get with
          | ok keys => exact .succeeded keys hnow hfetch
          | error e =>
              apply Leaves.failed hnow
              rw [hfetch]
              exact Bool.noConfusion

/-- Where there is no forced fetch, it does not matter what one would meet. -/
theorem validate_eq_of_no_forcedFetch {forced : Refresh}
    (h : verifier.forcedFetch visit accessToken cache = none)
    (hnow : forced.now = visit.forced.now) :
    (verifier.validate { visit with forced } now accessToken).run cache =
      (verifier.validate visit now accessToken).run cache := by
  unfold validate
  cases hnamed : verifier.namedKey accessToken with
  | error e => rfl
  | ok kid =>
      rw [run_lift_bind_of_ok rfl, run_lift_bind_of_ok rfl]
      have hkey : (verifier.keyFor { visit with forced } kid).run cache =
          (verifier.keyFor visit kid).run cache := by
        have hsame : verifier.refreshIfNeeded { visit with forced } =
          verifier.refreshIfNeeded visit := rfl
        unfold keyFor
        rw [hsame]
        unfold forcedFetch at h
        rw [hnamed] at h
        cases hbetween : (verifier.refreshIfNeeded visit).run cache with
        | error e between =>
            rw [run_bind_eq_error.mpr (.inl hbetween), run_bind_eq_error.mpr (.inl hbetween)]
        | ok u between =>
            rw [hbetween] at h
            rw [run_bind_of_ok hbetween, run_bind_of_ok hbetween, run_get_bind, run_get_bind]
            cases hlookup : between.keysByKid.lookup kid with
            | some key => rfl
            | none =>
                -- no forced fetch although the key is missing: the limit held it back
                have hskips : Skips between true visit.forced.now := by
                  simpa [hlookup] using h
                have hskips' : Skips between true forced.now := hnow ▸ hskips
                have hrun : (verifier.refresh true visit.forced).run between = .ok () between := by
                  rw [run_refresh, if_pos hskips]
                have hrun' : (verifier.refresh true forced).run between = .ok () between := by
                  rw [run_refresh, if_pos hskips']
                simp only
                rw [run_bind_of_ok hrun, run_bind_of_ok hrun']
      rw [EStateM.run_bind, EStateM.run_bind, hkey]

/-! ## Every run -/

/-- The invariant: the limit that is in force is past every forced fetch that
succeeded. -/
structure Limited (verifier : AuthorizationServerVerifier) (w : Watch) : Prop where
  past : ∀ fetch ∈ w.forced, fetch.now ≤ w.clock
  limit : ∀ fetch ∈ w.forced, fetch.succeeded = true →
    fetch.now + verifier.forcedRefreshIntervalSeconds ≤ w.cache.earliestNextRefreshAt
  spaced : w.forced.Pairwise fun later earlier => earlier.succeeded = true →
    earlier.now + verifier.forcedRefreshIntervalSeconds ≤ later.now

theorem watching_step_eq_some {w' : Watch} :
    verifier.watching.step w call = some w' ↔ w.Timely call ∧ w' = {
      cache := finalState ((verifier.validate call.visit call.now call.accessToken).run w.cache)
      clock := call.visit.forced.fetchedAt
      forced :=
        (verifier.forcedFetch call.visit call.accessToken w.cache).toList ++ w.forced } := by
  simp only [watching, Option.ite_none_right_eq_some, Option.some.injEq]
  exact and_congr_right fun _ => eq_comm

theorem Limited.step {w' : Watch} (h : verifier.Limited w)
    (hstep : verifier.watching.step w call = some w') : verifier.Limited w' := by
  obtain ⟨htimely, rfl⟩ := watching_step_eq_some.mp hstep
  obtain ⟨harrival, hlock, hfetched, hforced, hlast⟩ := htimely
  obtain ⟨between, hregular, hleaves⟩ :=
    exists_leaves verifier call.visit call.now call.accessToken w.cache
  have hclock : w.clock ≤ call.visit.regular.fetchedAt := harrival.trans (hlock.trans hfetched)
  have hpast : ∀ fetch ∈ w.forced, fetch.now ≤ call.visit.forced.fetchedAt := by
    intro fetch hfetch
    exact (h.past fetch hfetch).trans (hclock.trans (hforced.trans hlast))
  -- a regular fetch moves the limit as well, and only forward
  have hlimit : ∀ fetch ∈ w.forced, fetch.succeeded = true →
      fetch.now + verifier.forcedRefreshIntervalSeconds ≤ between.earliestNextRefreshAt := by
    intro fetch hfetch hsucceeded
    rcases hregular with rfl | ⟨keys, rfl⟩
    · exact h.limit fetch hfetch hsucceeded
    · exact add_le_add_left ((h.past fetch hfetch).trans hclock) _
  -- a fetch that the limit lets through is an interval past all that succeeded
  have hspaced : ∀ fetch : ForcedFetch, between.earliestNextRefreshAt ≤ fetch.now →
      (fetch :: w.forced).Pairwise fun later earlier => earlier.succeeded = true →
        earlier.now + verifier.forcedRefreshIntervalSeconds ≤ later.now := by
    intro fetch hnow
    refine List.pairwise_cons.mpr ⟨?_, h.spaced⟩
    intro earlier hearlier hsucceeded
    exact (hlimit earlier hearlier hsucceeded).trans hnow
  generalize verifier.forcedFetch call.visit call.accessToken w.cache = fetched at hleaves ⊢
  generalize finalState ((verifier.validate call.visit call.now call.accessToken).run w.cache) =
    after at hleaves ⊢
  cases hleaves with
  | quiet => exact ⟨hpast, hlimit, h.spaced⟩
  | failed hnow _ =>
      refine ⟨?_, ?_, ?_⟩
      · exact List.forall_mem_cons.mpr ⟨hlast, hpast⟩
      · exact List.forall_mem_cons.mpr ⟨Bool.noConfusion, hlimit⟩
      · exact hspaced ⟨_, _⟩ hnow
  | succeeded keys hnow _ =>
      refine ⟨?_, ?_, ?_⟩
      · exact List.forall_mem_cons.mpr ⟨hlast, hpast⟩
      · refine List.forall_mem_cons.mpr ⟨fun _ => ?_, ?_⟩
        · exact add_le_add_left hlast _
        · intro fetch hfetch _
          exact add_le_add_left (hpast fetch hfetch) _
      · exact hspaced ⟨_, _⟩ hnow

/-- The limit holds in every state of every run. -/
theorem limited_of_reachable (hw : verifier.watching.Reachable w) : verifier.Limited w := by
  refine hw.invariant (P := verifier.Limited) ?_ ?_
  · intro w hinit
    obtain ⟨_, hforced⟩ := hinit
    constructor <;> simp [hforced]
  · intro w call w' _ h hstep
    exact h.step hstep

theorem watching_forced {w' : Watch} (hstep : verifier.watching.step w call = some w') :
    w'.forced = (verifier.forcedFetch call.visit call.accessToken w.cache).toList ++ w.forced := by
  obtain ⟨_, rfl⟩ := watching_step_eq_some.mp hstep
  rfl

/-- What the limit leaves open is the distance to a fetch that failed. -/
theorem spaced_step {w' : Watch} (hw : verifier.watching.Reachable w)
    (hspaced : Spaced verifier.forcedRefreshIntervalSeconds w.forced)
    (hdistance : verifier.KeepsDistance w call) (hstep : verifier.watching.step w call = some w') :
    Spaced verifier.forcedRefreshIntervalSeconds w'.forced := by
  have hlimited : verifier.Limited w' := limited_of_reachable (hw.step call hstep)
  have hforced := watching_forced hstep
  cases hfetch : verifier.forcedFetch call.visit call.accessToken w.cache with
  | none =>
      rw [hfetch] at hforced
      rw [hforced]
      exact hspaced
  | some fetch =>
      rw [hfetch, Option.toList_some, List.singleton_append] at hforced
      have hlater := hlimited.spaced
      rw [hforced] at hlater ⊢
      refine List.pairwise_cons.mpr ⟨?_, hspaced⟩
      intro earlier hearlier
      cases hsucceeded : earlier.succeeded with
      | true => exact (List.pairwise_cons.mp hlater).1 earlier hearlier hsucceeded
      | false => exact hdistance fetch hfetch earlier hearlier hsucceeded

/-- The runs that keep their distance are those in which the forced fetches are
an interval apart. -/
theorem keepsDistance_iff_spaced :
    (verifier.watching.restrict verifier.KeepsDistance).Reachable w ↔
      verifier.watching.Reachable w ∧ Spaced verifier.forcedRefreshIntervalSeconds w.forced := by
  constructor
  · intro hw
    refine ⟨hw.of_restrict, hw.invariant_of_restrict
      (P := fun w => Spaced verifier.forcedRefreshIntervalSeconds w.forced) ?_ ?_⟩
    · intro w hinit
      rw [Spaced, hinit.2]
      exact List.Pairwise.nil
    · intro w call w' hw hspaced hdistance hstep
      exact spaced_step hw hspaced hdistance hstep
  · intro h
    obtain ⟨hw, hspaced⟩ := h
    induction hw with
    | init hinit => exact .init hinit
    | @step w w' call hw hstep ih =>
        rw [watching_forced hstep] at hspaced
        have hbefore : Spaced verifier.forcedRefreshIntervalSeconds w.forced :=
          hspaced.sublist (List.sublist_append_right _ _)
        refine (ih hbefore).step call (System.restrict_step_eq_some.mpr ⟨?_, hstep⟩)
        intro fetch hfetch earlier hearlier _
        rw [hfetch, Option.toList_some, List.singleton_append] at hspaced
        exact (List.pairwise_cons.mp hspaced).1 earlier hearlier

/-- Where every forced fetch is answered, every one succeeds. -/
theorem succeeded_of_answered
    (hw : (verifier.watching.restrict verifier.Answered).Reachable w) :
    ∀ fetch ∈ w.forced, fetch.succeeded = true := by
  refine hw.invariant_of_restrict (P := fun w => ∀ fetch ∈ w.forced, fetch.succeeded = true) ?_ ?_
  · intro w hinit
    rw [hinit.2]
    exact List.forall_mem_nil _
  · intro w call w' _ hsucceeded hanswered hstep
    obtain ⟨_, _, hleaves⟩ := exists_leaves verifier call.visit call.now call.accessToken w.cache
    rw [watching_forced hstep]
    unfold Answered at hanswered
    generalize verifier.forcedFetch call.visit call.accessToken w.cache = fetched
      at hleaves hanswered ⊢
    generalize finalState ((verifier.validate call.visit call.now call.accessToken).run w.cache) =
      after at hleaves
    cases hleaves with
    | quiet => exact hsucceeded
    | failed _ hfailed => exact absurd (hanswered (Option.some_ne_none _)) hfailed
    | succeeded _ _ _ => exact List.forall_mem_cons.mpr ⟨rfl, hsucceeded⟩

/-- So the limit, which looks at fetches that succeeded, is the one of all. -/
theorem spaced_of_answered (hw : (verifier.watching.restrict verifier.Answered).Reachable w) :
    Spaced verifier.forcedRefreshIntervalSeconds w.forced := by
  refine (limited_of_reachable hw.of_restrict).spaced.imp_of_mem ?_
  intro later earlier _ hearlier hspaced
  exact hspaced (succeeded_of_answered hw earlier hearlier)

end AuthorizationServerVerifier

namespace Example.ForcedRefresh

/-- The first token makes the verifier fetch the keys at 10 and force a fetch at
16, which fails. -/
def firstCall : ValidateCall where
  accessToken := "stranger"
  now := 1100
  visit := Discovery.site.visit Discovery.first

/-- A second later the next one forces another fetch. -/
def secondCall : ValidateCall where
  accessToken := "stranger"
  now := 1101
  visit := Discovery.site.visit Discovery.second

def afterFirst : Watch where
  cache := Discovery.afterFirst.cache
  clock := 16
  forced := [⟨16, false⟩]

def afterSecond : Watch where
  cache := Discovery.afterFirst.cache
  clock := 17
  forced := [⟨17, false⟩, ⟨16, false⟩]

end Example.ForcedRefresh

/-- **When unknown `kid`s cannot drive fetches.**  The forced fetches of a run
are an interval apart exactly if each of them keeps its distance from those that
failed before, and so whenever all of them are answered; a failed refresh
changes nothing in any case. -/
theorem forced_fetches_spaced (verifier : AuthorizationServerVerifier) :
    (∀ w, (verifier.watching.restrict verifier.KeepsDistance).Reachable w ↔
      verifier.watching.Reachable w ∧ Spaced verifier.forcedRefreshIntervalSeconds w.forced) ∧
    (∀ w, (verifier.watching.restrict verifier.Answered).Reachable w →
      Spaced verifier.forcedRefreshIntervalSeconds w.forced) ∧
    ∀ force refreshed cache e after,
      (verifier.refresh force refreshed).run cache = .error e after → after = cache := by
  refine ⟨?_, ?_, ?_⟩
  · intro w
    exact AuthorizationServerVerifier.keepsDistance_iff_spaced
  · intro w hw
    exact AuthorizationServerVerifier.spaced_of_answered hw
  · intro force refreshed cache e after h
    exact AuthorizationServerVerifier.refresh_error h

/-- Two tokens, one second apart, both drive a fetch. -/
theorem failed_fetch_not_limited :
    Example.Discovery.remote.forcedRefreshIntervalSeconds = 5 ∧
    Example.ForcedRefresh.afterFirst.cache =
      Example.Discovery.remote.filled [(Example.basePointKey.kid, Example.Discovery.jwk)] 11 ∧
    Example.Discovery.remote.watching.Reachable Example.ForcedRefresh.afterFirst ∧
    Example.Discovery.remote.watching.Reachable Example.ForcedRefresh.afterSecond ∧
      ¬ Spaced 5 Example.ForcedRefresh.afterSecond.forced := by
  have hstart : Example.Discovery.remote.watching.Reachable {} := .init ⟨rfl, rfl⟩
  have hfirst : Example.Discovery.remote.watching.Reachable Example.ForcedRefresh.afterFirst :=
    hstart.step Example.ForcedRefresh.firstCall (by decide +kernel)
  have hsecond : Example.Discovery.remote.watching.Reachable Example.ForcedRefresh.afterSecond :=
    hfirst.step Example.ForcedRefresh.secondCall (by decide +kernel)
  refine ⟨rfl, rfl, hfirst, hsecond, ?_⟩
  intro hspaced
  have hpair : (16 : ℚ) + 5 ≤ 17 :=
    (List.pairwise_cons.mp hspaced).1 ⟨16, false⟩ List.mem_cons_self
  norm_num at hpair

end AgentOAuth
