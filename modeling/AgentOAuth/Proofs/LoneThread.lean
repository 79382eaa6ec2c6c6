import AgentOAuth.Proofs.SingleFlight

/-!
# A thread alone

A thread that no other one interrupts computes `_key_for`: what it can end with,
and the cache it can leave, is what one run of `keyFor` gives, for clock
readings that do not go back (`keyFor_of_alone`).  So the results about one
`validate` after the other hold of threads that take turns.

`Remains` says at each point of a thread what the rest of it amounts to.  Every
step carries it backwards, and as long as the thread has not ended some step
carries it forwards.
-/

namespace AgentOAuth

open Effect Relation Transition

/-- How a call of `_key_for` ends. -/
abbrev KeyResult := EStateM.Result ValidationExc KeyCache Dict

/-- The readings of the clock in a refresh do not go back. -/
structure Refresh.After (clock : ℚ) (r : Refresh) : Prop where
  lock : clock ≤ r.now
  fetched : r.now ≤ r.fetchedAt

theorem Refresh.After.earlier {clock later : ℚ} {r : Refresh} (h : r.After later)
    (hle : clock ≤ later) : r.After clock :=
  ⟨hle.trans h.lock, h.fetched⟩

/-- A refresh that meets nothing new. -/
def Refresh.idle (clock : ℚ) : Refresh where
  now := clock
  get _ := .error .http
  fetchedAt := clock

theorem Refresh.after_idle (clock : ℚ) : (Refresh.idle clock).After clock :=
  ⟨le_rfl, le_rfl⟩

/-- The readings of the clock in a call do not go back. -/
structure Visit.After (clock : ℚ) (visit : Visit) : Prop where
  arrival : clock ≤ visit.arrival
  regular : visit.regular.After visit.arrival
  forced : visit.forced.After visit.regular.fetchedAt

namespace AuthorizationServerVerifier

variable {verifier : AuthorizationServerVerifier} {s t : SharedVerifier} {l l' : KeyLookup}
  {i : ℕ} {action : KeyAction} {call : KeyCall} {kid : String} {result : KeyResult}

variable (verifier) in
/-- `_key_for` from the first or the second look at the keys on. -/
def lookFor (call : KeyCall) (forced : Refresh) : EStateM ValidationExc KeyCache Dict := do
  let cache ← get
  match cache.keysByKid.lookup call.kid with
  | some key => pure key
  | none =>
      if call.force then
        throw (.tokenValidation "token key ID is not published by the authorization server")
      else
        verifier.refresh true forced
        let cache ← get
        match cache.keysByKid.lookup call.kid with
        | some key => pure key
        | none =>
            throw (.tokenValidation "token key ID is not published by the authorization server")

theorem keyFor_eq_lookFor (visit : Visit) (kid : String) :
    verifier.keyFor visit kid = (do
      verifier.refreshIfNeeded visit
      verifier.lookFor ⟨kid, visit.arrival, false⟩ visit.forced) := rfl

/-- The second refresh, and the second look. -/
theorem lookFor_eq_refresh {kid : String} {arrival : ℚ} {forced other : Refresh} {cache : KeyCache}
    (hmiss : cache.keysByKid.lookup kid = none) :
    (verifier.lookFor ⟨kid, arrival, false⟩ forced).run cache =
      (do
        verifier.refresh true forced
        verifier.lookFor ⟨kid, arrival, true⟩ other : EStateM ValidationExc KeyCache Dict).run
          cache := by
  rw [lookFor, run_get_bind, hmiss]
  rfl

/-! ## What remains of a call -/

variable (verifier) in
/-- A refresh that starts after `clock`, then the look. -/
def RefreshThenLook (clock : ℚ) (cache : KeyCache) (call : KeyCall) (result : KeyResult) : Prop :=
  ∃ r forced, r.After clock ∧ forced.After r.fetchedAt ∧ (do
    verifier.refresh call.force r
    verifier.lookFor call forced : EStateM ValidationExc KeyCache Dict).run cache = result

variable (verifier) in
/-- The look after `clock`, unless the refresh has failed. -/
def LookAfter (clock : ℚ) (cache : KeyCache) (call : KeyCall) (result : KeyResult) :
    Except ValidationExc KeyCache → Prop
  | .ok after => ∃ forced, forced.After clock ∧ (verifier.lookFor call forced).run after = result
  | .error e => result = .error e cache

variable (verifier) in
/-- The result that the rest of a call may have, when it meets nobody. -/
def Remains (s : SharedVerifier) (result : KeyResult) : KeyLookup → Prop
  | .idle => False
  | .arriving kid => ∃ visit, visit.After s.clock ∧ (verifier.keyFor visit kid).run s.cache = result
  | .checking kid arrival => ∃ visit, visit.arrival = arrival ∧ visit.regular.After s.clock ∧
      visit.forced.After visit.regular.fetchedAt ∧
        (verifier.keyFor visit kid).run s.cache = result
  | .locking call => verifier.RefreshThenLook s.clock s.cache call result
  | .locked call => verifier.RefreshThenLook s.clock s.cache call result
  | .deciding call now => ∃ r forced, r.now = now ∧ s.clock ≤ r.fetchedAt ∧
      forced.After r.fetchedAt ∧ (do
        verifier.refresh call.force r
        verifier.lookFor call forced : EStateM ValidationExc KeyCache Dict).run s.cache = result
  | .fetching call _ => ∃ get fetchedAt, s.clock ≤ fetchedAt ∧
      verifier.LookAfter fetchedAt s.cache call result
        ((verifier.fetchKeys get).map (verifier.filled · fetchedAt))
  | .storing call fetch => verifier.LookAfter s.clock s.cache call result
      (.ok (verifier.filled fetch.keys fetch.fetchedAt))
  | .expiring call fetch => verifier.LookAfter s.clock s.cache call result
      (.ok (verifier.filled s.cache.keysByKid fetch.fetchedAt))
  | .limiting call fetch => verifier.LookAfter s.clock s.cache call result
      (.ok { s.cache with
        earliestNextRefreshAt := fetch.fetchedAt + verifier.forcedRefreshIntervalSeconds })
  | .unlocking call outcome => verifier.LookAfter s.clock s.cache call result
      (outcome.map fun _ => s.cache)
  | .looking call => verifier.LookAfter s.clock s.cache call result (.ok s.cache)
  | .returned _ key => result = .ok key s.cache
  | .raised e => result = .error e s.cache

variable {clock later : ℚ} {cache : KeyCache} {refreshed : Except ValidationExc KeyCache}

theorem RefreshThenLook.earlier (h : verifier.RefreshThenLook later cache call result)
    (hle : clock ≤ later) : verifier.RefreshThenLook clock cache call result := by
  obtain ⟨r, forced, hr, hrest⟩ := h
  exact ⟨r, forced, hr.earlier hle, hrest⟩

theorem LookAfter.earlier (h : verifier.LookAfter later cache call result refreshed)
    (hle : clock ≤ later) : verifier.LookAfter clock cache call result refreshed := by
  cases refreshed with
  | ok after =>
      obtain ⟨forced, hforced, hrun⟩ := h
      exact ⟨forced, hforced.earlier hle, hrun⟩
  | error e => exact h

/-- A refresh is skipped, fails, or fills the cache; then comes the look. -/
theorem run_refresh_bind {r : Refresh} {f : Unit → EStateM ValidationExc KeyCache Dict} :
    (verifier.refresh call.force r >>= f).run cache =
      if Skips cache call.force r.now then (f ()).run cache
      else
        match verifier.fetchKeys r.get with
        | .ok keys => (f ()).run (verifier.filled keys r.fetchedAt)
        | .error e => .error e cache := by
  have hrefresh : (verifier.refresh call.force r).run cache = _ := run_refresh
  by_cases hskips : Skips cache call.force r.now
  · rw [if_pos hskips] at hrefresh ⊢
    exact run_bind_of_ok hrefresh f
  · rw [if_neg hskips] at hrefresh ⊢
    cases hfetch : verifier.fetchKeys r.get with
    | ok keys =>
        rw [hfetch] at hrefresh
        exact run_bind_of_ok hrefresh f
    | error e =>
        rw [hfetch] at hrefresh
        exact run_bind_eq_error.mpr (.inl hrefresh)

theorem keyFor_of_expired {visit : Visit} (h : cache.cacheExpiresAt ≤ visit.arrival) :
    (verifier.keyFor visit kid).run cache =
      (do
        verifier.refresh false visit.regular
        verifier.lookFor ⟨kid, visit.arrival, false⟩ visit.forced :
          EStateM ValidationExc KeyCache Dict).run cache := by
  rw [keyFor_eq_lookFor]
  have hrefresh : (verifier.refreshIfNeeded visit).run cache = _ := run_refreshIfNeeded
  rw [if_pos h] at hrefresh
  cases hregular : (verifier.refresh false visit.regular).run cache with
  | ok u after =>
      rw [run_bind_of_ok (hrefresh.trans hregular), run_bind_of_ok hregular]
  | error e after =>
      rw [run_bind_eq_error.mpr (.inl (hrefresh.trans hregular)),
        run_bind_eq_error.mpr (.inl hregular)]

theorem keyFor_of_valid {visit : Visit} (h : ¬ cache.cacheExpiresAt ≤ visit.arrival) :
    (verifier.keyFor visit kid).run cache =
      (verifier.lookFor ⟨kid, visit.arrival, false⟩ visit.forced).run cache := by
  have hrefresh : (verifier.refreshIfNeeded visit).run cache = _ := run_refreshIfNeeded
  rw [if_neg h] at hrefresh
  rw [keyFor_eq_lookFor]
  exact run_bind_of_ok hrefresh _

/-! ## The points where a call branches -/

theorem remains_afterCheck {arrival : ℚ} :
    verifier.Remains s result (afterCheck s kid arrival) ↔
      verifier.Remains s result (.checking kid arrival) := by
  unfold afterCheck
  split
  next hexpired =>
    constructor
    · intro h
      obtain ⟨r, forced, hr, hforced, hrun⟩ := h
      exact ⟨⟨arrival, r, forced⟩, rfl, hr, hforced, (keyFor_of_expired hexpired).trans hrun⟩
    · intro h
      obtain ⟨visit, rfl, hregular, hforced, hrun⟩ := h
      exact ⟨visit.regular, visit.forced, hregular, hforced,
        (keyFor_of_expired hexpired).symm.trans hrun⟩
  next hvalid =>
    constructor
    · intro h
      obtain ⟨forced, hforced, hrun⟩ := h
      exact ⟨⟨arrival, .idle s.clock, forced⟩, rfl, Refresh.after_idle _, hforced,
        (keyFor_of_valid hvalid).trans hrun⟩
    · intro h
      obtain ⟨visit, rfl, hregular, hforced, hrun⟩ := h
      exact ⟨visit.forced, hforced.earlier (hregular.lock.trans hregular.fetched),
        (keyFor_of_valid hvalid).symm.trans hrun⟩

/-- What a refresh amounts to that is not skipped. -/
theorem run_fetch_bind {r : Refresh} {f : Unit → EStateM ValidationExc KeyCache Dict}
    (hskips : ¬ Skips cache call.force r.now) :
    (verifier.refresh call.force r >>= f).run cache =
      match (verifier.fetchKeys r.get).map (verifier.filled · r.fetchedAt) with
      | .ok after => (f ()).run after
      | .error e => .error e cache := by
  rw [run_refresh_bind, if_neg hskips]
  cases verifier.fetchKeys r.get <;> rfl

theorem remains_afterDecision {now : ℚ} :
    verifier.Remains s result (afterDecision s call now) ↔
      verifier.Remains s result (.deciding call now) := by
  unfold afterDecision
  split
  next hskips =>
    constructor
    · intro h
      obtain ⟨forced, hforced, hrun⟩ := h
      -- a refresh that is skipped looks at the clock and at nothing else
      refine ⟨{ Refresh.idle s.clock with now }, forced, rfl, le_rfl, hforced, ?_⟩
      rw [run_refresh_bind, if_pos hskips]
      exact hrun
    · intro h
      obtain ⟨r, forced, rfl, hfetched, hforced, hrun⟩ := h
      rw [run_refresh_bind, if_pos hskips] at hrun
      exact ⟨forced, hforced.earlier hfetched, hrun⟩
  next hskips =>
    constructor
    · intro h
      obtain ⟨get, fetchedAt, hclock, hrest⟩ := h
      cases hfetch : (verifier.fetchKeys get).map (verifier.filled · fetchedAt) with
      | ok after =>
          rw [hfetch] at hrest
          obtain ⟨forced, hforced, hrun⟩ := hrest
          refine ⟨⟨now, get, fetchedAt⟩, forced, rfl, hclock, hforced, ?_⟩
          rw [run_fetch_bind hskips, hfetch]
          exact hrun
      | error e =>
          rw [hfetch] at hrest
          -- the fetch fails, so there is no second refresh: any visit will do for it
          refine ⟨⟨now, get, fetchedAt⟩, .idle fetchedAt, rfl, hclock, Refresh.after_idle _, ?_⟩
          rw [run_fetch_bind hskips, hfetch]
          exact hrest.symm
    · intro h
      obtain ⟨r, forced, rfl, hfetched, hforced, hrun⟩ := h
      rw [run_fetch_bind hskips] at hrun
      refine ⟨r.get, r.fetchedAt, hfetched, ?_⟩
      cases hfetch : (verifier.fetchKeys r.get).map (verifier.filled · r.fetchedAt) with
      | ok after =>
          rw [hfetch] at hrun
          exact ⟨forced, hforced, hrun⟩
      | error e =>
          rw [hfetch] at hrun
          exact hrun.symm

theorem remains_afterRelease {outcome : Except ValidationExc Unit} :
    verifier.Remains s result (afterRelease call outcome) ↔
      verifier.Remains s result (.unlocking call outcome) := by
  cases outcome with
  | ok _ => exact Iff.rfl
  | error e => exact Iff.rfl

theorem remains_afterLookup :
    verifier.Remains s result (afterLookup s call) ↔ verifier.Remains s result (.looking call) := by
  obtain ⟨kid, arrival, force⟩ := call
  unfold afterLookup
  cases hlookup : s.cache.keysByKid.lookup kid with
  | some key =>
      have hrun : ∀ forced, (verifier.lookFor ⟨kid, arrival, force⟩ forced).run s.cache =
          .ok key s.cache := by
        intro forced
        rw [lookFor, run_get_bind, hlookup]
        rfl
      exact ⟨fun h => ⟨.idle s.clock, Refresh.after_idle _, (hrun _).trans h.symm⟩,
        fun ⟨forced, _, h⟩ => h.symm.trans (hrun forced)⟩
  | none =>
      cases force with
      | true =>
          have hrun : ∀ forced, (verifier.lookFor ⟨kid, arrival, true⟩ forced).run s.cache =
              .error (.tokenValidation
                "token key ID is not published by the authorization server") s.cache := by
            intro forced
            rw [lookFor, run_get_bind, hlookup]
            rfl
          exact ⟨fun h => ⟨.idle s.clock, Refresh.after_idle _, (hrun _).trans h.symm⟩,
            fun ⟨forced, _, h⟩ => h.symm.trans (hrun forced)⟩
      | false =>
          constructor
          · intro h
            obtain ⟨r, forced, hr, _, hrun⟩ := h
            exact ⟨r, hr, (lookFor_eq_refresh hlookup).trans hrun⟩
          · intro h
            obtain ⟨r, hr, hrun⟩ := h
            exact ⟨r, .idle r.fetchedAt, hr, Refresh.after_idle _,
              (lookFor_eq_refresh hlookup).symm.trans hrun⟩

/-! ## Backwards and forwards -/

theorem remains_of_keyStep (h : verifier.KeyStep i s l action t l')
    (hown : ∀ kid, action ≠ .enter kid) (ht : verifier.Remains t result l') :
    verifier.Remains s result l := by
  cases h with
  | enter kid _ => exact absurd rfl (hown kid)
  | @arrive kid now _ htick =>
      obtain ⟨hlater, _, hclock⟩ := later_of_tick htick
      obtain ⟨visit, rfl, hregular, hforced, hrun⟩ := ht
      exact ⟨visit, ⟨hclock ▸ hlater.clock, hclock ▸ hregular, hforced⟩, hlater.cache ▸ hrun⟩
  | check => exact remains_afterCheck.mp ht
  | lock hacquire =>
      obtain ⟨hlater, _, _⟩ := later_of_acquire hacquire
      have hearlier := RefreshThenLook.earlier ht hlater.clock
      rw [hlater.cache] at hearlier
      exact hearlier
  | read htick =>
      obtain ⟨hlater, _, hclock⟩ := later_of_tick htick
      obtain ⟨r, forced, rfl, hfetched, hforced, hrun⟩ := ht
      exact ⟨r, forced, ⟨hclock ▸ hlater.clock, hclock ▸ hfetched⟩, hforced, hlater.cache ▸ hrun⟩
  | decide => exact remains_afterDecision.mp ht
  | @fetched call now fetchedAt get keys _ hkeys htick =>
      obtain ⟨hlater, _, hclock⟩ := later_of_tick htick
      refine ⟨get, fetchedAt, hclock ▸ hlater.clock, ?_⟩
      rw [hkeys, ← hlater.cache]
      exact hclock ▸ ht
  | @failed call now fetchedAt get e hfailed =>
      refine ⟨get, s.clock, le_rfl, ?_⟩
      rw [hfailed]
      exact ht
  | store => exact ht
  | expire => exact ht
  | limit => exact ht
  | unlock => exact remains_afterRelease.mp ht
  | look => exact remains_afterLookup.mp ht

/-- Nobody else has the lock. -/
def Alone (i : ℕ) (s : SharedVerifier) (l : KeyLookup) : Prop :=
  s.lock = if l.holds then some i else none

/-- How many steps a thread has before it, at most. -/
def stepsLeft : KeyLookup → ℕ
  | .arriving _ => 21
  | .checking _ _ => 20
  | .locking call => again call + 9
  | .locked call => again call + 8
  | .deciding call _ => again call + 7
  | .fetching call _ => again call + 6
  | .storing call _ => again call + 5
  | .expiring call _ => again call + 4
  | .limiting call _ => again call + 3
  | .unlocking call _ => again call + 2
  | .looking call => again call + 1
  | .idle | .returned _ _ | .raised _ => 0
where
  /-- The steps of the second refresh. -/
  again (call : KeyCall) : ℕ := if call.force then 0 else 10

theorem stepsLeft_afterCheck {arrival : ℚ} : stepsLeft (afterCheck s kid arrival) < 20 := by
  unfold afterCheck
  split <;> simp [stepsLeft, stepsLeft.again]

theorem stepsLeft_afterDecision {now : ℚ} :
    stepsLeft (afterDecision s call now) < stepsLeft (.deciding call now) := by
  unfold afterDecision
  split <;> simp [stepsLeft]

theorem stepsLeft_afterRelease {outcome : Except ValidationExc Unit} :
    stepsLeft (afterRelease call outcome) < stepsLeft (.unlocking call outcome) := by
  cases outcome <;> simp [afterRelease, stepsLeft]

theorem stepsLeft_afterLookup : stepsLeft (afterLookup s call) < stepsLeft (.looking call) := by
  unfold afterLookup
  split
  next => simp [stepsLeft]
  next =>
    split
    next => simp [stepsLeft]
    next hforce => simp [stepsLeft, stepsLeft.again, hforce]

variable (verifier) in
/-- A step of the thread in the call that it is in. -/
def OwnStep (i : ℕ) (p q : SharedVerifier × KeyLookup) : Prop :=
  ∃ action, (∀ kid, action ≠ .enter kid) ∧ verifier.threadStep i p.1 p.2 action = some q

theorem ownStep_proceed {p q : SharedVerifier × KeyLookup}
    (h : verifier.threadStep i p.1 p.2 .proceed = some q) : verifier.OwnStep i p q :=
  ⟨.proceed, fun _ => by simp, h⟩

theorem ownStep_tick {p q : SharedVerifier × KeyLookup} (now : ℚ)
    (h : verifier.threadStep i p.1 p.2 (.tick now) = some q) : verifier.OwnStep i p q :=
  ⟨.tick now, fun _ => by simp, h⟩

theorem ownStep_answer {p q : SharedVerifier × KeyLookup} (get : String → Except HttpExc Value)
    (fetchedAt : ℚ) (h : verifier.threadStep i p.1 p.2 (.answer get fetchedAt) = some q) :
    verifier.OwnStep i p q :=
  ⟨.answer get fetchedAt, fun _ => by simp, h⟩

theorem tick_of_le {now : ℚ} (h : s.clock ≤ now) : s.tick now = some { s with clock := now } :=
  if_pos h

/-- The call has ended with the result, and the cache is what it leaves. -/
def Ended (p : SharedVerifier × KeyLookup) (result : KeyResult) : Prop :=
  p.2.result? = some (outcome result) ∧ p.1.cache = finalState result

theorem remains_of_ended (h : Ended (s, l) result) : verifier.Remains s result l := by
  obtain ⟨hresult, hcache⟩ := h
  cases result with
  | ok key after =>
      cases l <;> cases hresult
      exact congrArg (EStateM.Result.ok key) hcache.symm
  | error e after =>
      cases l <;> cases hresult
      exact congrArg (EStateM.Result.error e) hcache.symm

/-- As long as the call has not ended, some step leads on to the result. -/
theorem exists_ownStep (halone : Alone i s l) (h : verifier.Remains s result l) :
    Ended (s, l) result ∨
      ∃ t l', verifier.OwnStep i (s, l) (t, l') ∧ Alone i t l' ∧ verifier.Remains t result l' ∧
        stepsLeft l' < stepsLeft l := by
  cases l with
  | idle => exact h.elim
  | returned call key =>
      cases h
      exact .inl ⟨rfl, rfl⟩
  | raised e =>
      cases h
      exact .inl ⟨rfl, rfl⟩
  | arriving kid =>
      obtain ⟨visit, hvisit, hrun⟩ := h
      refine .inr ⟨{ s with clock := visit.arrival }, .checking kid visit.arrival,
        ownStep_tick visit.arrival ?_, halone,
        ⟨visit, rfl, hvisit.regular, hvisit.forced, hrun⟩, Nat.lt_succ_self 20⟩
      simp only [threadStep, tick_of_le hvisit.arrival, Option.map_some]
  | checking kid arrival =>
      refine .inr ⟨s, afterCheck s kid arrival, ownStep_proceed rfl, ?_,
        remains_afterCheck.mpr h, stepsLeft_afterCheck⟩
      rw [Alone, holds_afterCheck]
      exact halone
  | locking call =>
      refine .inr ⟨{ s with lock := some i }, .locked call, ownStep_proceed ?_, rfl, h,
        Nat.lt_succ_self _⟩
      -- nobody else holds the lock
      have hfree : s.lock = none := halone
      simp only [threadStep, SharedVerifier.acquire, hfree, if_true, Option.map_some]
  | locked call =>
      obtain ⟨r, forced, hr, hforced, hrun⟩ := h
      refine .inr ⟨{ s with clock := r.now }, .deciding call r.now,
        ownStep_tick r.now ?_, halone, ⟨r, forced, rfl, hr.fetched, hforced, hrun⟩,
        Nat.lt_succ_self _⟩
      simp only [threadStep, tick_of_le hr.lock, Option.map_some]
  | deciding call now =>
      refine .inr ⟨s, afterDecision s call now, ownStep_proceed rfl, ?_,
        remains_afterDecision.mpr h, stepsLeft_afterDecision⟩
      rw [Alone, holds_afterDecision]
      exact halone
  | fetching call now =>
      obtain ⟨get, fetchedAt, hclock, hrest⟩ := h
      cases hfetch : verifier.fetchKeys get with
      | ok keys =>
          rw [hfetch] at hrest
          refine .inr ⟨{ s with clock := fetchedAt },
            .storing call ⟨call.force, now, fetchedAt, keys⟩, ownStep_answer get fetchedAt ?_, halone,
            hrest, Nat.lt_succ_self _⟩
          simp only [threadStep, hfetch, tick_of_le hclock, Option.map_some]
      | error e =>
          rw [hfetch] at hrest
          refine .inr ⟨s, .unlocking call (.error e), ownStep_answer get fetchedAt ?_, halone,
            hrest, by simp [stepsLeft]⟩
          simp only [threadStep, hfetch]
  | storing call fetch =>
      exact .inr ⟨_, _, ownStep_proceed rfl, halone, h, Nat.lt_succ_self _⟩
  | expiring call fetch =>
      exact .inr ⟨_, _, ownStep_proceed rfl, halone, h, Nat.lt_succ_self _⟩
  | limiting call fetch =>
      exact .inr ⟨_, _, ownStep_proceed rfl, halone, h, Nat.lt_succ_self _⟩
  | unlocking call outcome =>
      refine .inr ⟨s.release, afterRelease call outcome, ownStep_proceed rfl, ?_,
        remains_afterRelease.mpr h, stepsLeft_afterRelease⟩
      rw [Alone, holds_afterRelease]
      rfl
  | looking call =>
      refine .inr ⟨s, afterLookup s call, ownStep_proceed rfl, ?_,
        remains_afterLookup.mpr h, stepsLeft_afterLookup⟩
      rw [Alone, holds_afterLookup]
      exact halone

/-- **A thread alone computes `_key_for`.**  What an uninterrupted call can end
with, and the cache that it leaves, is what one run of `keyFor` gives. -/
theorem keyFor_of_alone (hfree : s.lock = none) :
    (∃ p, ReflTransGen (verifier.OwnStep i) (s, .arriving kid) p ∧ Ended p result) ↔
      ∃ visit, visit.After s.clock ∧ (verifier.keyFor visit kid).run s.cache = result := by
  have hfinal : ∀ (p : SharedVerifier × KeyLookup) (result : KeyResult), Ended p result →
      verifier.Remains p.1 result p.2 := fun _ _ h => remains_of_ended h
  -- each step back adds to the visit what this step has read
  have hback : ∀ (p q : SharedVerifier × KeyLookup) (result : KeyResult),
      verifier.OwnStep i p q → verifier.Remains q.1 result q.2 →
        verifier.Remains p.1 result p.2 := by
    intro p q result hstep
    obtain ⟨_, hown, hstep⟩ := hstep
    exact remains_of_keyStep (keyStep_of_threadStep hstep) hown
  have hforth : ∀ (p : SharedVerifier × KeyLookup) (result : KeyResult), Alone i p.1 p.2 →
      verifier.Remains p.1 result p.2 → Ended p result ∨ ∃ q, verifier.OwnStep i p q ∧
        Alone i q.1 q.2 ∧ verifier.Remains q.1 result q.2 ∧ stepsLeft q.2 < stepsLeft p.2 := by
    intro p result halone hremains
    refine (exists_ownStep halone hremains).imp id fun h => ?_
    obtain ⟨t, l, hstep⟩ := h
    exact ⟨(t, l), hstep⟩
  constructor
  · intro h
    obtain ⟨p, hrun, hended⟩ := h
    exact may_of_run hfinal hback hrun hended
  · intro h
    exact exists_run_of_may hforth (s := (s, .arriving kid)) hfree h

theorem keyFor_of_alone_first :
    ∃ p, ReflTransGen (Example.Discovery.remote.OwnStep 0)
        ({}, .arriving Example.basePointKey.kid) p ∧
      Ended p (.ok Example.Discovery.jwk Example.Discovery.afterFirst.cache) := by
  have hvisit : (Example.Discovery.site.visit Example.Discovery.first).After 0 :=
    ⟨by decide +kernel, ⟨by decide +kernel, by decide +kernel⟩,
      ⟨by decide +kernel, by decide +kernel⟩⟩
  exact (keyFor_of_alone rfl).mpr
    ⟨Example.Discovery.site.visit Example.Discovery.first, hvisit, by rfl⟩

end AuthorizationServerVerifier

end AgentOAuth
