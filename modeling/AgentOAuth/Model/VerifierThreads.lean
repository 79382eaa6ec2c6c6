import AgentOAuth.Lib.Interleaving
import AgentOAuth.Model.ResourceVerifier

/-!
# Threads in the resource server's verifier

The verifier has a lock, so that threads may share it.  This is `_key_for`,
`_refresh_if_needed` and `_refresh` once more, one access to a shared field at a
time: the lock guards the refresh, and the fields are read without it.  The
header checks before `_key_for` and `jwt.decode` after it touch nothing that is
shared.

The successful fetches are kept as well, newest first, from the assignment of
`_keys_by_kid` on.
-/

namespace AgentOAuth

open Interleaving

/-- A fetch that brought keys: whether it was forced, and the clock under the
lock and after the requests. -/
structure Fetch where
  force : Bool
  now : ℚ
  fetchedAt : ℚ
  keys : KeysByKid
  deriving DecidableEq

/-- The fields of the verifier, its lock, and the last reading of the monotonic
clock. -/
structure SharedVerifier where
  cache : KeyCache := {}
  lock : Option ℕ := none
  clock : ℚ := 0
  fetches : List Fetch := []
  deriving DecidableEq

/-- A call of `_key_for`; `force` once it has missed the cache. -/
structure KeyCall where
  kid : String
  arrival : ℚ
  force : Bool
  deriving DecidableEq

/-- How far a thread has come in `_key_for(kid)`. -/
inductive KeyLookup
  | idle
  /-- About to read the clock in `_refresh_if_needed`. -/
  | arriving (kid : String)
  /-- About to compare with `_cache_expires_at`. -/
  | checking (kid : String) (arrival : ℚ)
  /-- At `with self._lock`. -/
  | locking (call : KeyCall)
  | locked (call : KeyCall)
  /-- About to compare with the limit. -/
  | deciding (call : KeyCall) (now : ℚ)
  | fetching (call : KeyCall) (now : ℚ)
  /-- About to assign `_keys_by_kid`, `_cache_expires_at`, `_earliest_next_refresh_at`. -/
  | storing (call : KeyCall) (fetch : Fetch)
  | expiring (call : KeyCall) (fetch : Fetch)
  | limiting (call : KeyCall) (fetch : Fetch)
  /-- Leaving the `with` block. -/
  | unlocking (call : KeyCall) (outcome : Except ValidationExc Unit)
  /-- At `self._keys_by_kid.get(kid)`. -/
  | looking (call : KeyCall)
  | returned (call : KeyCall) (key : Dict)
  | raised (e : ValidationExc)
  deriving DecidableEq

/-- What may happen to a thread next. -/
inductive KeyAction
  | enter (kid : String)
  /-- It reads the clock. -/
  | tick (now : ℚ)
  | proceed
  /-- Its requests are answered, and it reads the clock. -/
  | answer (get : String → Except HttpExc Value) (fetchedAt : ℚ)

/-- The thread is inside the `with` block. -/
def KeyLookup.holds : KeyLookup → Bool
  | .locked _ => true
  | .deciding _ _ => true
  | .fetching _ _ => true
  | .storing _ _ => true
  | .expiring _ _ => true
  | .limiting _ _ => true
  | .unlocking _ _ => true
  | _ => false

/-- How the call ended. -/
def KeyLookup.result? : KeyLookup → Option (Except ValidationExc Dict)
  | .returned _ key => some (.ok key)
  | .raised e => some (.error e)
  | _ => none

namespace SharedVerifier

/-- The clock does not go back. -/
def tick (s : SharedVerifier) (now : ℚ) : Option SharedVerifier :=
  if s.clock ≤ now then some { s with clock := now } else none

/-- `with self._lock`, which waits for the lock to be free. -/
def acquire (s : SharedVerifier) (i : ℕ) : Option SharedVerifier :=
  if s.lock = none then some { s with lock := some i } else none

/-- The end of `with self._lock`. -/
def release (s : SharedVerifier) : SharedVerifier :=
  { s with lock := none }

/-- `self._keys_by_kid = parsed_keys`. -/
def store (s : SharedVerifier) (fetch : Fetch) : SharedVerifier :=
  { s with
    cache := { s.cache with keysByKid := fetch.keys }
    fetches := fetch :: s.fetches }

/-- `self._cache_expires_at = fetched_at + self._cache_ttl_seconds`. -/
def expire (s : SharedVerifier) (cacheExpiresAt : ℚ) : SharedVerifier :=
  { s with cache := { s.cache with cacheExpiresAt } }

/-- `self._earliest_next_refresh_at = fetched_at + self._forced_refresh_interval_seconds`. -/
def limit (s : SharedVerifier) (earliestNextRefreshAt : ℚ) : SharedVerifier :=
  { s with cache := { s.cache with earliestNextRefreshAt } }

end SharedVerifier

namespace AuthorizationServerVerifier

variable (verifier : AuthorizationServerVerifier)

/-- After `_refresh_if_needed` has looked at the cache. -/
def afterCheck (s : SharedVerifier) (kid : String) (arrival : ℚ) : KeyLookup :=
  if s.cache.cacheExpiresAt ≤ arrival then .locking ⟨kid, arrival, false⟩
  else .looking ⟨kid, arrival, false⟩

/-- After `_refresh` has compared the clock with the limit. -/
def afterDecision (s : SharedVerifier) (call : KeyCall) (now : ℚ) : KeyLookup :=
  if Skips s.cache call.force now then .unlocking call (.ok ()) else .fetching call now

/-- After the `with` block. -/
def afterRelease (call : KeyCall) : Except ValidationExc Unit → KeyLookup
  | .ok _ => .looking call
  | .error e => .raised e

/-- After `self._keys_by_kid.get(kid)`: a first miss forces a refresh. -/
def afterLookup (s : SharedVerifier) (call : KeyCall) : KeyLookup :=
  match s.cache.keysByKid.lookup call.kid with
  | some key => .returned call key
  | none =>
      if call.force then
        .raised (.tokenValidation "token key ID is not published by the authorization server")
      else .locking { call with force := true }

/-- What the thread `i` does next. -/
def threadStep (i : ℕ) (s : SharedVerifier) :
    KeyLookup → KeyAction → Option (SharedVerifier × KeyLookup)
  | .idle, .enter kid => some (s, .arriving kid)
  | .returned _ _, .enter kid => some (s, .arriving kid)
  | .raised _, .enter kid => some (s, .arriving kid)
  | .arriving kid, .tick now => (s.tick now).map fun s => (s, .checking kid now)
  | .checking kid arrival, .proceed => some (s, afterCheck s kid arrival)
  | .locking call, .proceed => (s.acquire i).map fun s => (s, .locked call)
  | .locked call, .tick now => (s.tick now).map fun s => (s, .deciding call now)
  | .deciding call now, .proceed => some (s, afterDecision s call now)
  | .fetching call now, .answer get fetchedAt =>
      match verifier.fetchKeys get with
      | .ok keys => (s.tick fetchedAt).map fun s =>
          (s, .storing call ⟨call.force, now, fetchedAt, keys⟩)
      | .error e => some (s, .unlocking call (.error e))
  | .storing call fetch, .proceed => some (s.store fetch, .expiring call fetch)
  | .expiring call fetch, .proceed =>
      some (s.expire (fetch.fetchedAt + verifier.cacheTtlSeconds), .limiting call fetch)
  | .limiting call fetch, .proceed =>
      some (s.limit (fetch.fetchedAt + verifier.forcedRefreshIntervalSeconds),
        .unlocking call (.ok ()))
  | .unlocking call outcome, .proceed => some (s.release, afterRelease call outcome)
  | .looking call, .proceed => some (s, afterLookup s call)
  | _, _ => none

/-- Any number of threads on one verifier; nobody else changes its fields. -/
def threads : Program SharedVerifier KeyLookup Empty KeyAction where
  step := verifier.threadStep
  environment _ e := nomatch e

/-- A verifier that has just been built, and its idle threads. -/
def threaded : Transition.System (Config SharedVerifier KeyLookup) (Interleaving.Event Empty KeyAction) :=
  verifier.threads.system
    (fun s => s.cache = {} ∧ s.lock = none ∧ 0 ≤ s.clock ∧ s.fetches = []) .idle

/-! ## The steps one by one -/

/-- A step of the thread `i`, by where it stands. -/
inductive KeyStep (i : ℕ) (s : SharedVerifier) :
    KeyLookup → KeyAction → SharedVerifier → KeyLookup → Prop
  | enter {l : KeyLookup} (kid : String) (hfree : l.holds = false) :
      KeyStep i s l (.enter kid) s (.arriving kid)
  | arrive {kid : String} {now : ℚ} {t : SharedVerifier} (htick : s.tick now = some t) :
      KeyStep i s (.arriving kid) (.tick now) t (.checking kid now)
  | check {kid : String} {arrival : ℚ} :
      KeyStep i s (.checking kid arrival) .proceed s (afterCheck s kid arrival)
  | lock {call : KeyCall} {t : SharedVerifier} (hacquire : s.acquire i = some t) :
      KeyStep i s (.locking call) .proceed t (.locked call)
  | read {call : KeyCall} {now : ℚ} {t : SharedVerifier} (htick : s.tick now = some t) :
      KeyStep i s (.locked call) (.tick now) t (.deciding call now)
  | decide {call : KeyCall} {now : ℚ} :
      KeyStep i s (.deciding call now) .proceed s (afterDecision s call now)
  | fetched {call : KeyCall} {now fetchedAt : ℚ} {get : String → Except HttpExc Value}
      {keys : KeysByKid} {t : SharedVerifier} (hkeys : verifier.fetchKeys get = .ok keys)
      (htick : s.tick fetchedAt = some t) :
      KeyStep i s (.fetching call now) (.answer get fetchedAt) t
        (.storing call ⟨call.force, now, fetchedAt, keys⟩)
  | failed {call : KeyCall} {now fetchedAt : ℚ} {get : String → Except HttpExc Value}
      {e : ValidationExc} (hfailed : verifier.fetchKeys get = .error e) :
      KeyStep i s (.fetching call now) (.answer get fetchedAt) s (.unlocking call (.error e))
  | store {call : KeyCall} {fetch : Fetch} :
      KeyStep i s (.storing call fetch) .proceed (s.store fetch) (.expiring call fetch)
  | expire {call : KeyCall} {fetch : Fetch} :
      KeyStep i s (.expiring call fetch) .proceed
        (s.expire (fetch.fetchedAt + verifier.cacheTtlSeconds)) (.limiting call fetch)
  | limit {call : KeyCall} {fetch : Fetch} :
      KeyStep i s (.limiting call fetch) .proceed
        (s.limit (fetch.fetchedAt + verifier.forcedRefreshIntervalSeconds))
        (.unlocking call (.ok ()))
  | unlock {call : KeyCall} {outcome : Except ValidationExc Unit} :
      KeyStep i s (.unlocking call outcome) .proceed s.release (afterRelease call outcome)
  | look {call : KeyCall} :
      KeyStep i s (.looking call) .proceed s (afterLookup s call)

variable {verifier} {i : ℕ} {s t : SharedVerifier} {l l' : KeyLookup}

theorem keyStep_of_enter {kid : String}
    (h : verifier.threadStep i s l (.enter kid) = some (t, l')) :
    verifier.KeyStep i s l (.enter kid) t l' := by
  cases l with
  | idle | returned | raised =>
      cases h
      exact .enter kid rfl
  | _ => cases h

theorem keyStep_of_tick {now : ℚ} (h : verifier.threadStep i s l (.tick now) = some (t, l')) :
    verifier.KeyStep i s l (.tick now) t l' := by
  cases l with
  | arriving kid =>
      obtain ⟨u, htick, heq⟩ := Option.map_eq_some_iff.mp h
      cases heq
      exact .arrive htick
  | locked call =>
      obtain ⟨u, htick, heq⟩ := Option.map_eq_some_iff.mp h
      cases heq
      exact .read htick
  | _ => cases h

theorem keyStep_of_answer {get : String → Except HttpExc Value} {fetchedAt : ℚ}
    (h : verifier.threadStep i s l (.answer get fetchedAt) = some (t, l')) :
    verifier.KeyStep i s l (.answer get fetchedAt) t l' := by
  cases l with
  | fetching call now =>
      cases hkeys : verifier.fetchKeys get with
      | ok keys =>
          simp only [threadStep, hkeys] at h
          obtain ⟨u, htick, heq⟩ := Option.map_eq_some_iff.mp h
          cases heq
          exact .fetched hkeys htick
      | error e =>
          simp only [threadStep, hkeys] at h
          cases h
          exact .failed hkeys
  | _ => cases h

theorem keyStep_of_proceed (h : verifier.threadStep i s l .proceed = some (t, l')) :
    verifier.KeyStep i s l .proceed t l' := by
  cases l with
  | checking kid arrival =>
      cases h
      exact .check
  | locking call =>
      obtain ⟨u, hacquire, heq⟩ := Option.map_eq_some_iff.mp h
      cases heq
      exact .lock hacquire
  | deciding call now =>
      cases h
      exact .decide
  | storing call fetch =>
      cases h
      exact .store
  | expiring call fetch =>
      cases h
      exact .expire
  | limiting call fetch =>
      cases h
      exact .limit
  | unlocking call outcome =>
      cases h
      exact .unlock
  | looking call =>
      cases h
      exact .look
  | _ => cases h

theorem keyStep_of_threadStep {action : KeyAction}
    (h : verifier.threadStep i s l action = some (t, l')) :
    verifier.KeyStep i s l action t l' := by
  cases action with
  | enter kid => exact keyStep_of_enter h
  | tick now => exact keyStep_of_tick h
  | proceed => exact keyStep_of_proceed h
  | answer get fetchedAt => exact keyStep_of_answer h

end AuthorizationServerVerifier

end AgentOAuth
