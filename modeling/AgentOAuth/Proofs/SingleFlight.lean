import AgentOAuth.Model.VerifierThreads
import AgentOAuth.Proofs.VerifierParity

/-!
# Threads share one cache of keys

Threads of a verifier read its fields without the lock and write them one by
one, so a reader may find new keys with the old expiry.  In every interleaving
the lock still does its work: one thread at a time fetches, and no fetch comes
before the limit the last successful one has set (`single_flight`).  And no
thread uses a key that was last published more than the lifetime of the cache
before it asked (`keys_are_fresh`).

`Fits` says what a thread may rely on at each point.  Under the lock the cache
is what the latest fetch left (`Stored`), apart from the assignments still to be
made.
-/

namespace AgentOAuth

open Interleaving Transition

namespace AuthorizationServerVerifier

variable {verifier : AuthorizationServerVerifier} {s s' t : SharedVerifier} {l l' m : KeyLookup}
  {i j : ℕ} {action : KeyAction} {call : KeyCall} {fetch : Fetch} {arrival : ℚ}

/-! ## The invariant -/

/-- How long after a successful fetch the next one has to wait. -/
def pause (verifier : AuthorizationServerVerifier) (force : Bool) : ℚ :=
  if force then verifier.forcedRefreshIntervalSeconds else verifier.cacheTtlSeconds

/-- The keys were fetched after the arrival, or within the lifetime of the cache
before it. -/
def FreshFor (verifier : AuthorizationServerVerifier) (arrival : ℚ) (fetch : Fetch) : Prop :=
  arrival ≤ fetch.fetchedAt ∨ arrival < fetch.fetchedAt + verifier.cacheTtlSeconds

/-- The latest fetch is fresh enough. -/
def Fresh (verifier : AuthorizationServerVerifier) (s : SharedVerifier) (arrival : ℚ) : Prop :=
  ∃ fetch, s.fetches.head? = some fetch ∧ verifier.FreshFor arrival fetch

/-- The cache is what the latest fetch left. -/
def Stored (verifier : AuthorizationServerVerifier) (s : SharedVerifier) : Prop :=
  s.cache = match s.fetches.head? with
    | some fetch => verifier.filled fetch.keys fetch.fetchedAt
    | none => {}

/-- No fetch came before the limit that an earlier one had set. -/
def SpacedFetches (verifier : AuthorizationServerVerifier) (fetches : List Fetch) : Prop :=
  fetches.Pairwise fun later earlier => earlier.fetchedAt + verifier.pause later.force ≤ later.now

/-- What holds of the shared fields between any two accesses. -/
structure Consistent (verifier : AuthorizationServerVerifier) (s : SharedVerifier) : Prop where
  clock : 0 ≤ s.clock
  past : ∀ fetch ∈ s.fetches, fetch.fetchedAt ≤ s.clock
  newest : s.fetches.Pairwise fun later earlier => earlier.fetchedAt ≤ later.fetchedAt
  spaced : verifier.SpacedFetches s.fetches
  keys : s.cache.keysByKid = (s.fetches.head?.map Fetch.keys).getD []
  /-- While the fields are being written the expiry may be that of the last but one. -/
  expiry : ∀ arrival, 0 ≤ arrival → arrival < s.cache.cacheExpiresAt → verifier.Fresh s arrival
  free : s.lock = none → verifier.Stored s

/-- The call has arrived; one that forces a refresh has found a fresh cache. -/
structure Arrived (verifier : AuthorizationServerVerifier) (s : SharedVerifier) (call : KeyCall) :
    Prop where
  nonneg : 0 ≤ call.arrival
  past : call.arrival ≤ s.clock
  fresh : call.force = true → verifier.Fresh s call.arrival

/-- What a thread may rely on at each point. -/
def Fits (verifier : AuthorizationServerVerifier) (s : SharedVerifier) : KeyLookup → Prop
  | .idle => True
  | .arriving _ => True
  | .checking _ arrival => 0 ≤ arrival ∧ arrival ≤ s.clock
  | .locking call => verifier.Arrived s call
  | .locked call => verifier.Arrived s call ∧ verifier.Stored s
  | .deciding call now => verifier.Arrived s call ∧ verifier.Stored s ∧ call.arrival ≤ now ∧
      now ≤ s.clock
  | .fetching call now => verifier.Arrived s call ∧ verifier.Stored s ∧ call.arrival ≤ now ∧
      now ≤ s.clock ∧ ¬ Skips s.cache call.force now
  | .storing call fetch => verifier.Arrived s call ∧ verifier.Stored s ∧
      call.arrival ≤ fetch.fetchedAt ∧ fetch.fetchedAt ≤ s.clock ∧
        (∀ earlier ∈ s.fetches, earlier.fetchedAt ≤ fetch.fetchedAt) ∧
          ¬ Skips s.cache fetch.force fetch.now
  | .expiring call fetch => verifier.Arrived s call ∧ s.fetches.head? = some fetch ∧
      call.arrival ≤ fetch.fetchedAt
  | .limiting call fetch => verifier.Arrived s call ∧ s.fetches.head? = some fetch ∧
      call.arrival ≤ fetch.fetchedAt ∧
        s.cache.cacheExpiresAt = fetch.fetchedAt + verifier.cacheTtlSeconds
  | .unlocking call outcome => verifier.Arrived s call ∧ verifier.Stored s ∧
      (outcome = .ok () → verifier.Fresh s call.arrival)
  | .looking call => verifier.Arrived s call ∧ verifier.Fresh s call.arrival
  | .returned call key => ∃ fetch ∈ s.fetches, fetch.keys.lookup call.kid = some key ∧
      verifier.FreshFor call.arrival fetch
  | .raised _ => True

/-- The thread fits, and holds the lock when it is inside the `with` block. -/
def Keeps (verifier : AuthorizationServerVerifier) (i : ℕ) (s : SharedVerifier) (l : KeyLookup) :
    Prop :=
  (l.holds = true ↔ s.lock = some i) ∧ verifier.Fits s l

/-! ## What a step does to the shared fields -/

/-- Time passes. -/
structure Later (s t : SharedVerifier) : Prop where
  cache : t.cache = s.cache
  fetches : t.fetches = s.fetches
  clock : s.clock ≤ t.clock

theorem later_of_tick {now : ℚ} (h : s.tick now = some t) :
    Later s t ∧ t.lock = s.lock ∧ t.clock = now := by
  simp only [SharedVerifier.tick, Option.ite_none_right_eq_some, Option.some.injEq] at h
  obtain ⟨hle, rfl⟩ := h
  exact ⟨⟨rfl, rfl, hle⟩, rfl, rfl⟩

theorem later_of_acquire (h : s.acquire i = some t) :
    Later s t ∧ s.lock = none ∧ t.lock = some i := by
  simp only [SharedVerifier.acquire, Option.ite_none_right_eq_some, Option.some.injEq] at h
  obtain ⟨hfree, rfl⟩ := h
  exact ⟨⟨rfl, rfl, le_rfl⟩, hfree, rfl⟩

theorem later_release : Later s s.release :=
  ⟨rfl, rfl, le_rfl⟩

theorem Later.fresh (h : Later s t) : verifier.Fresh t arrival ↔ verifier.Fresh s arrival := by
  unfold Fresh
  rw [h.fetches]

theorem Later.stored (h : Later s t) : verifier.Stored t ↔ verifier.Stored s := by
  unfold Stored
  rw [h.fetches, h.cache]

theorem Later.arrived (h : Later s t) (harrived : verifier.Arrived s call) :
    verifier.Arrived t call where
  nonneg := harrived.nonneg
  past := harrived.past.trans h.clock
  fresh hforce := h.fresh.mpr (harrived.fresh hforce)

/-- Nothing that a thread relies on is lost with time. -/
theorem Later.fits (h : Later s t) (hfits : verifier.Fits s l) : verifier.Fits t l := by
  cases l with
  | idle => trivial
  | arriving kid => trivial
  | raised e => trivial
  | checking kid arrival => exact ⟨hfits.1, hfits.2.trans h.clock⟩
  | locking call => exact h.arrived hfits
  | locked call => exact ⟨h.arrived hfits.1, h.stored.mpr hfits.2⟩
  | deciding call now =>
      obtain ⟨harrived, hstored, harrival, hnow⟩ := hfits
      exact ⟨h.arrived harrived, h.stored.mpr hstored, harrival, hnow.trans h.clock⟩
  | fetching call now =>
      obtain ⟨harrived, hstored, harrival, hnow, hskips⟩ := hfits
      exact ⟨h.arrived harrived, h.stored.mpr hstored, harrival, hnow.trans h.clock,
        h.cache ▸ hskips⟩
  | storing call fetch =>
      obtain ⟨harrived, hstored, harrival, hfetched, hearlier, hskips⟩ := hfits
      exact ⟨h.arrived harrived, h.stored.mpr hstored, harrival, hfetched.trans h.clock,
        h.fetches ▸ hearlier, h.cache ▸ hskips⟩
  | expiring call fetch =>
      obtain ⟨harrived, hhead, harrival⟩ := hfits
      exact ⟨h.arrived harrived, h.fetches ▸ hhead, harrival⟩
  | limiting call fetch =>
      obtain ⟨harrived, hhead, harrival, hexpiry⟩ := hfits
      exact ⟨h.arrived harrived, h.fetches ▸ hhead, harrival, h.cache ▸ hexpiry⟩
  | unlocking call outcome =>
      obtain ⟨harrived, hstored, hfresh⟩ := hfits
      exact ⟨h.arrived harrived, h.stored.mpr hstored, fun hok => h.fresh.mpr (hfresh hok)⟩
  | looking call => exact ⟨h.arrived hfits.1, h.fresh.mpr hfits.2⟩
  | returned call key =>
      obtain ⟨fetch, hfetch, hrest⟩ := hfits
      exact ⟨fetch, h.fetches ▸ hfetch, hrest⟩

theorem Later.consistent (h : Later s t) (hlock : t.lock = none → verifier.Stored s)
    (hs : verifier.Consistent s) : verifier.Consistent t where
  clock := hs.clock.trans h.clock
  past fetch hfetch := (hs.past fetch (h.fetches ▸ hfetch)).trans h.clock
  newest := h.fetches ▸ hs.newest
  spaced := h.fetches ▸ hs.spaced
  keys := by rw [h.cache, h.fetches, hs.keys]
  expiry arrival hnonneg harrival :=
    h.fresh.mpr (hs.expiry arrival hnonneg (h.cache ▸ harrival))
  free hfree := h.stored.mpr (hlock hfree)

/-- A thread outside the `with` block relies on the clock, and on the fetches so
far. -/
structure Onward (verifier : AuthorizationServerVerifier) (s t : SharedVerifier) : Prop where
  clock : s.clock ≤ t.clock
  kept : s.fetches ⊆ t.fetches
  fresh : ∀ {arrival}, verifier.Fresh s arrival → verifier.Fresh t arrival

theorem Later.onward (h : Later s t) : verifier.Onward s t where
  clock := h.clock
  kept := h.fetches ▸ List.Subset.refl _
  fresh := h.fresh.mpr

theorem Onward.arrived (h : verifier.Onward s t) (harrived : verifier.Arrived s call) :
    verifier.Arrived t call where
  nonneg := harrived.nonneg
  past := harrived.past.trans h.clock
  fresh hforce := h.fresh (harrived.fresh hforce)

theorem Onward.fits (h : verifier.Onward s t) (hfits : verifier.Fits s l)
    (hfree : l.holds = false) : verifier.Fits t l := by
  cases l with
  | idle => trivial
  | arriving kid => trivial
  | raised e => trivial
  | checking kid arrival => exact ⟨hfits.1, hfits.2.trans h.clock⟩
  | locking call => exact h.arrived hfits
  | looking call => exact ⟨h.arrived hfits.1, h.fresh hfits.2⟩
  | returned call key =>
      obtain ⟨fetch, hfetch, hrest⟩ := hfits
      exact ⟨fetch, h.kept hfetch, hrest⟩
  | locked call => cases hfree
  | deciding call now => cases hfree
  | fetching call now => cases hfree
  | storing call fetch => cases hfree
  | expiring call fetch => cases hfree
  | limiting call fetch => cases hfree
  | unlocking call outcome => cases hfree

/-! ## The three assignments -/

theorem FreshFor.mono {later : Fetch} (h : verifier.FreshFor arrival fetch)
    (hle : fetch.fetchedAt ≤ later.fetchedAt) : verifier.FreshFor arrival later := by
  unfold FreshFor at h ⊢
  rcases h with h | h
  · exact .inl (h.trans hle)
  · exact .inr (by linarith)

/-- A refresh that is not skipped comes after every limit set so far. -/
theorem spaced_of_not_skips (hs : verifier.Consistent s) (hstored : verifier.Stored s)
    {force : Bool} {now : ℚ} (hskips : ¬ Skips s.cache force now) :
    ∀ earlier ∈ s.fetches, earlier.fetchedAt + verifier.pause force ≤ now := by
  have hnewest := hs.newest
  unfold Stored at hstored
  cases hfetches : s.fetches with
  | nil => simp
  | cons latest rest =>
      rw [hfetches] at hstored hnewest
      have hlatest : latest.fetchedAt + verifier.pause force ≤ now := by
        rw [hstored] at hskips
        cases force <;> simpa [Skips, filled, pause] using hskips
      -- the limits grow with the fetches, so the latest one is the last
      intro earlier hearlier
      rcases List.mem_cons.mp hearlier with rfl | hrest
      · exact hlatest
      · have hle := List.rel_of_pairwise_cons hnewest hrest
        linarith

/-- What `_keys_by_kid` is assigned from: a fetch that is later than all before,
and that was not to be skipped. -/
structure Next (verifier : AuthorizationServerVerifier) (s : SharedVerifier) (fetch : Fetch) :
    Prop where
  past : fetch.fetchedAt ≤ s.clock
  newest : ∀ earlier ∈ s.fetches, earlier.fetchedAt ≤ fetch.fetchedAt
  spaced : ∀ earlier ∈ s.fetches, earlier.fetchedAt + verifier.pause fetch.force ≤ fetch.now

theorem Next.onward (h : verifier.Next s fetch) : verifier.Onward s (s.store fetch) where
  clock := le_rfl
  kept := List.subset_cons_self fetch s.fetches
  fresh hfresh := by
    obtain ⟨latest, hhead, hlatest⟩ := hfresh
    exact ⟨fetch, rfl, hlatest.mono (h.newest latest (List.mem_of_mem_head? hhead))⟩

theorem Next.consistent (h : verifier.Next s fetch) (hs : verifier.Consistent s)
    (hlock : s.lock ≠ none) : verifier.Consistent (s.store fetch) where
  clock := hs.clock
  past := List.forall_mem_cons.mpr ⟨h.past, hs.past⟩
  newest := List.pairwise_cons.mpr ⟨h.newest, hs.newest⟩
  spaced := List.pairwise_cons.mpr ⟨h.spaced, hs.spaced⟩
  keys := rfl
  expiry arrival hnonneg harrival := h.onward.fresh (hs.expiry arrival hnonneg harrival)
  free hfree := absurd hfree hlock

theorem onward_expire {expiresAt : ℚ} : verifier.Onward s (s.expire expiresAt) where
  clock := le_rfl
  kept := List.Subset.refl _
  fresh hfresh := hfresh

theorem onward_limit {earliest : ℚ} : verifier.Onward s (s.limit earliest) where
  clock := le_rfl
  kept := List.Subset.refl _
  fresh hfresh := hfresh

/-- The new expiry is that of the latest fetch. -/
theorem consistent_expire (hs : verifier.Consistent s) (hlock : s.lock ≠ none)
    (hhead : s.fetches.head? = some fetch) :
    verifier.Consistent (s.expire (fetch.fetchedAt + verifier.cacheTtlSeconds)) where
  clock := hs.clock
  past := hs.past
  newest := hs.newest
  spaced := hs.spaced
  keys := hs.keys
  expiry _ _ harrival := ⟨fetch, hhead, .inr harrival⟩
  free hfree := absurd hfree hlock

theorem consistent_limit {earliest : ℚ} (hs : verifier.Consistent s) (hlock : s.lock ≠ none) :
    verifier.Consistent (s.limit earliest) where
  clock := hs.clock
  past := hs.past
  newest := hs.newest
  spaced := hs.spaced
  keys := hs.keys
  expiry := hs.expiry
  free hfree := absurd hfree hlock

/-- With the last assignment the cache is what the fetch left. -/
theorem stored_limit (hs : verifier.Consistent s) (hhead : s.fetches.head? = some fetch)
    (hexpiry : s.cache.cacheExpiresAt = fetch.fetchedAt + verifier.cacheTtlSeconds) :
    verifier.Stored (s.limit (fetch.fetchedAt + verifier.forcedRefreshIntervalSeconds)) := by
  have hkeys := hs.keys
  simp only [hhead, Option.map_some, Option.getD_some] at hkeys
  simp only [Stored, SharedVerifier.limit, hhead, filled, hkeys, hexpiry]

/-! ## The step lemma -/

theorem not_none_of_keeps (h : verifier.Keeps i s l) (hholds : l.holds = true) :
    s.lock ≠ none := by
  rw [h.1.mp hholds]
  exact Option.some_ne_none i

theorem not_some_of_keeps (h : verifier.Keeps i s l) (hfree : l.holds = false) :
    s.lock ≠ some i := by
  intro hlock
  rw [h.1.mpr hlock] at hfree
  cases hfree

/-- A thread that held nothing and acquired nothing keeps its promise. -/
theorem keeps_of_free (hfree : l'.holds = false) (hlock : t.lock ≠ some i)
    (hfits : verifier.Fits t l') : verifier.Keeps i t l' := by
  refine ⟨⟨fun hholds => ?_, fun h => absurd h hlock⟩, hfits⟩
  rw [hfree] at hholds
  cases hholds

theorem keeps_of_holds (hholds : l'.holds = true) (hlock : t.lock = some i)
    (hfits : verifier.Fits t l') : verifier.Keeps i t l' :=
  ⟨⟨fun _ => hlock, fun _ => hholds⟩, hfits⟩

/-- Nothing that the threads outside the `with` block rely on is lost, and the
lock changes hands only as `holds` says. -/
structure Moved (verifier : AuthorizationServerVerifier) (i : ℕ) (s t : SharedVerifier)
    (l' : KeyLookup) : Prop where
  consistent : verifier.Consistent t
  keeps : verifier.Keeps i t l'
  onward : verifier.Onward s t
  others : ∀ j, j ≠ i → (t.lock = some j ↔ s.lock = some j)

/-- A step that leaves the cache and the fetches alone. -/
theorem moved_of_later (h : Later s t) (hlock : t.lock = s.lock) (hs : verifier.Consistent s)
    (hkeeps : verifier.Keeps i t l') : verifier.Moved i s t l' where
  consistent := h.consistent (fun hfree => hs.free (hlock ▸ hfree)) hs
  keeps := hkeeps
  onward := h.onward
  others j _ := by rw [hlock]

theorem fits_afterCheck (hs : verifier.Consistent s) {kid : String}
    (hfits : verifier.Fits s (.checking kid arrival)) :
    verifier.Fits s (afterCheck s kid arrival) := by
  obtain ⟨hnonneg, hpast⟩ := hfits
  unfold afterCheck
  split
  next => exact ⟨hnonneg, hpast, fun hforce => by cases hforce⟩
  next hvalid =>
    exact ⟨⟨hnonneg, hpast, fun hforce => by cases hforce⟩,
      hs.expiry arrival hnonneg (lt_of_not_ge hvalid)⟩

theorem holds_afterCheck {kid : String} : (afterCheck s kid arrival).holds = false := by
  unfold afterCheck
  split <;> rfl

theorem fits_afterDecision (hs : verifier.Consistent s) {now : ℚ}
    (hfits : verifier.Fits s (.deciding call now)) :
    verifier.Fits s (afterDecision s call now) := by
  obtain ⟨harrived, hstored, harrival, hnow⟩ := hfits
  unfold afterDecision
  split
  next hskips =>
    -- skipped: a valid cache will do, and a forced refresh had seen one in the lookup
    refine ⟨harrived, hstored, fun _ => ?_⟩
    cases hforce : call.force with
    | true => exact harrived.fresh hforce
    | false =>
        have hvalid : now < s.cache.cacheExpiresAt := by simpa [Skips, hforce] using hskips
        exact hs.expiry _ harrived.nonneg (harrival.trans_lt hvalid)
  next hskips => exact ⟨harrived, hstored, harrival, hnow, hskips⟩

theorem holds_afterDecision {now : ℚ} : (afterDecision s call now).holds = true := by
  unfold afterDecision
  split <;> rfl

theorem holds_afterRelease {outcome : Except ValidationExc Unit} :
    (afterRelease call outcome).holds = false := by
  cases outcome <;> rfl

/-- The keys of the cache are those of the latest fetch, whoever made it. -/
theorem fits_afterLookup (hs : verifier.Consistent s)
    (hfits : verifier.Fits s (.looking call)) : verifier.Fits s (afterLookup s call) := by
  obtain ⟨harrived, hfresh⟩ := hfits
  unfold afterLookup
  split
  next key hkey =>
    obtain ⟨latest, hhead, hlatest⟩ := hfresh
    have hkeys : s.cache.keysByKid = latest.keys := by
      rw [hs.keys, hhead]
      rfl
    exact ⟨latest, List.mem_of_mem_head? hhead, hkeys ▸ hkey, hlatest⟩
  next =>
    split
    next => trivial
    next => exact ⟨harrived.nonneg, harrived.past, fun _ => hfresh⟩

theorem holds_afterLookup : (afterLookup s call).holds = false := by
  unfold afterLookup
  split
  next => rfl
  next => split <;> rfl

theorem moved_arrive (hs : verifier.Consistent s) {kid : String} {now : ℚ}
    (hl : verifier.Keeps i s (.arriving kid)) (htick : s.tick now = some t) :
    verifier.Moved i s t (.checking kid now) := by
  obtain ⟨hlater, hlock, hclock⟩ := later_of_tick htick
  refine moved_of_later hlater hlock hs (keeps_of_free rfl ?_ ?_)
  · rw [hlock]
    exact not_some_of_keeps hl rfl
  · exact ⟨hclock ▸ hs.clock.trans hlater.clock, hclock.ge⟩

theorem moved_lock (hs : verifier.Consistent s) (hl : verifier.Keeps i s (.locking call))
    (hacquire : s.acquire i = some t) : verifier.Moved i s t (.locked call) := by
  obtain ⟨hlater, hfree, hlock⟩ := later_of_acquire hacquire
  refine ⟨hlater.consistent (fun hnone => ?_) hs, keeps_of_holds rfl hlock ?_, hlater.onward,
    fun j hj => ?_⟩
  · rw [hlock] at hnone
    cases hnone
  · -- while the lock is free, the cache is what the last refresh has left
    exact ⟨hlater.arrived hl.2, hlater.stored.mpr (hs.free hfree)⟩
  · rw [hlock, hfree]
    exact ⟨fun h => absurd (Option.some.inj h).symm hj, fun h => by cases h⟩

theorem moved_read (hs : verifier.Consistent s) {now : ℚ}
    (hl : verifier.Keeps i s (.locked call)) (htick : s.tick now = some t) :
    verifier.Moved i s t (.deciding call now) := by
  obtain ⟨hlater, hlock, hclock⟩ := later_of_tick htick
  obtain ⟨hholds, harrived, hstored⟩ := hl
  refine moved_of_later hlater hlock hs (keeps_of_holds rfl (hlock.trans (hholds.mp rfl)) ?_)
  exact ⟨hlater.arrived harrived, hlater.stored.mpr hstored,
    harrived.past.trans (hlater.clock.trans hclock.le), hclock.ge⟩

theorem moved_fetched (hs : verifier.Consistent s) {now fetchedAt : ℚ} (keys : KeysByKid)
    (hl : verifier.Keeps i s (.fetching call now)) (htick : s.tick fetchedAt = some t) :
    verifier.Moved i s t (.storing call ⟨call.force, now, fetchedAt, keys⟩) := by
  obtain ⟨hlater, hlock, hclock⟩ := later_of_tick htick
  obtain ⟨hholds, harrived, hstored, harrival, hnow, hskips⟩ := hl
  refine moved_of_later hlater hlock hs (keeps_of_holds rfl (hlock.trans (hholds.mp rfl)) ?_)
  have hfetched : s.clock ≤ fetchedAt := hlater.clock.trans hclock.le
  refine ⟨hlater.arrived harrived, hlater.stored.mpr hstored, harrived.past.trans hfetched,
    hclock.ge, fun earlier hearlier => ?_, hlater.cache ▸ hskips⟩
  exact (hs.past earlier (hlater.fetches ▸ hearlier)).trans hfetched

theorem moved_failed (hs : verifier.Consistent s) {now : ℚ} (e : ValidationExc)
    (hl : verifier.Keeps i s (.fetching call now)) :
    verifier.Moved i s s (.unlocking call (.error e)) := by
  obtain ⟨hholds, harrived, hstored, _⟩ := hl
  refine moved_of_later ⟨rfl, rfl, le_rfl⟩ rfl hs (keeps_of_holds rfl (hholds.mp rfl) ?_)
  exact ⟨harrived, hstored, fun hok => by cases hok⟩

/-- From here to `moved_limit` the three fields are of different fetches. -/
theorem moved_store (hs : verifier.Consistent s) (hl : verifier.Keeps i s (.storing call fetch)) :
    verifier.Moved i s (s.store fetch) (.expiring call fetch) := by
  have hlock := not_none_of_keeps hl rfl
  obtain ⟨hholds, harrived, hstored, harrival, hpast, hnewest, hskips⟩ := hl
  have hnext : verifier.Next s fetch := ⟨hpast, hnewest, spaced_of_not_skips hs hstored hskips⟩
  exact ⟨hnext.consistent hs hlock,
    keeps_of_holds rfl (hholds.mp rfl) ⟨hnext.onward.arrived harrived, rfl, harrival⟩,
    hnext.onward, fun j _ => Iff.rfl⟩

theorem moved_expire (hs : verifier.Consistent s)
    (hl : verifier.Keeps i s (.expiring call fetch)) :
    verifier.Moved i s (s.expire (fetch.fetchedAt + verifier.cacheTtlSeconds))
      (.limiting call fetch) := by
  have hlock := not_none_of_keeps hl rfl
  obtain ⟨hholds, harrived, hhead, harrival⟩ := hl
  exact ⟨consistent_expire hs hlock hhead,
    keeps_of_holds rfl (hholds.mp rfl) ⟨onward_expire.arrived harrived, hhead, harrival, rfl⟩,
    onward_expire, fun j _ => Iff.rfl⟩

theorem moved_limit (hs : verifier.Consistent s)
    (hl : verifier.Keeps i s (.limiting call fetch)) :
    verifier.Moved i s (s.limit (fetch.fetchedAt + verifier.forcedRefreshIntervalSeconds))
      (.unlocking call (.ok ())) := by
  have hlock := not_none_of_keeps hl rfl
  obtain ⟨hholds, harrived, hhead, harrival, hexpiry⟩ := hl
  exact ⟨consistent_limit hs hlock,
    keeps_of_holds rfl (hholds.mp rfl) ⟨onward_limit.arrived harrived,
      stored_limit hs hhead hexpiry, fun _ => ⟨_, hhead, .inl harrival⟩⟩,
    onward_limit, fun j _ => Iff.rfl⟩

theorem moved_unlock (hs : verifier.Consistent s) {outcome : Except ValidationExc Unit}
    (hl : verifier.Keeps i s (.unlocking call outcome)) :
    verifier.Moved i s s.release (afterRelease call outcome) := by
  obtain ⟨hholds, harrived, hstored, hfresh⟩ := hl
  refine ⟨later_release.consistent (fun _ => hstored) hs,
    keeps_of_free holds_afterRelease (fun hlock => by cases hlock) ?_, later_release.onward,
    fun j hj => ?_⟩
  · cases outcome with
    | ok _ => exact ⟨later_release.arrived harrived, later_release.fresh.mpr (hfresh rfl)⟩
    | error e => trivial
  · rw [hholds.mp rfl]
    exact ⟨fun h => (by cases h), fun h => absurd (Option.some.inj h).symm hj⟩

/-- **The step lemma**, for the thread that moves. -/
theorem moved_of_keyStep (hs : verifier.Consistent s) (hl : verifier.Keeps i s l)
    (h : verifier.KeyStep i s l action t l') : verifier.Moved i s t l' := by
  cases h with
  | enter kid hfree =>
      exact moved_of_later ⟨rfl, rfl, le_rfl⟩ rfl hs
        (keeps_of_free rfl (not_some_of_keeps hl hfree) trivial)
  | arrive htick => exact moved_arrive hs hl htick
  | check =>
      exact moved_of_later ⟨rfl, rfl, le_rfl⟩ rfl hs
        (keeps_of_free holds_afterCheck (not_some_of_keeps hl rfl) (fits_afterCheck hs hl.2))
  | lock hacquire => exact moved_lock hs hl hacquire
  | read htick => exact moved_read hs hl htick
  | decide =>
      exact moved_of_later ⟨rfl, rfl, le_rfl⟩ rfl hs
        (keeps_of_holds holds_afterDecision (hl.1.mp rfl) (fits_afterDecision hs hl.2))
  | fetched _ htick => exact moved_fetched hs _ hl htick
  | failed _ => exact moved_failed hs _ hl
  | store => exact moved_store hs hl
  | expire => exact moved_expire hs hl
  | limit => exact moved_limit hs hl
  | unlock => exact moved_unlock hs hl
  | look =>
      exact moved_of_later ⟨rfl, rfl, le_rfl⟩ rfl hs
        (keeps_of_free holds_afterLookup (not_some_of_keeps hl rfl) (fits_afterLookup hs hl.2))

theorem later_of_keyStep_of_free (h : verifier.KeyStep i s l action t l')
    (hfree : l.holds = false) : Later s t := by
  cases h with
  | enter kid _ => exact ⟨rfl, rfl, le_rfl⟩
  | arrive htick => exact (later_of_tick htick).1
  | check => exact ⟨rfl, rfl, le_rfl⟩
  | lock hacquire => exact (later_of_acquire hacquire).1
  | look => exact ⟨rfl, rfl, le_rfl⟩
  | read _ => cases hfree
  | decide => cases hfree
  | fetched _ _ => cases hfree
  | failed _ => cases hfree
  | store => cases hfree
  | expire => cases hfree
  | limit => cases hfree
  | unlock => cases hfree

/-- No step of one thread disturbs another: it holds the lock, and the other is
outside; or it does not, and then only time passes. -/
theorem keeps_of_keyStep_other (hs : verifier.Consistent s) (hl : verifier.Keeps i s l)
    (hm : verifier.Keeps j s m) (hne : i ≠ j) (h : verifier.KeyStep i s l action t l') :
    verifier.Keeps j t m := by
  have hmoved := moved_of_keyStep hs hl h
  refine ⟨hm.1.trans (hmoved.others j (Ne.symm hne)).symm, ?_⟩
  cases hholds : m.holds with
  | false => exact hmoved.onward.fits hm.2 hholds
  | true =>
      have hfree : l.holds = false := by
        rw [← Bool.not_eq_true, hl.1, hm.1.mp hholds]
        exact fun heq => hne (Option.some.inj heq).symm
      exact (later_of_keyStep_of_free h hfree).fits hm.2

/-- What a step keeps, whichever thread makes it. -/
theorem threads_invariant (verifier : AuthorizationServerVerifier) :
    verifier.threads.Invariant verifier.Consistent verifier.Keeps fun _ _ => True where
  symm _ := trivial
  mover hs hl hstep := by
    have hmoved := moved_of_keyStep hs hl (keyStep_of_threadStep hstep)
    exact ⟨hmoved.consistent, hmoved.keeps⟩
  others hs hl hm hne _ hstep :=
    ⟨keeps_of_keyStep_other hs hl hm hne (keyStep_of_threadStep hstep), trivial⟩
  outside {_ e} _ _ := e.elim

/-! ## Every interleaving -/

variable {c : Config SharedVerifier KeyLookup}

theorem everywhere_of_threaded (hc : verifier.threaded.Reachable c) :
    Program.Everywhere verifier.Consistent verifier.Keeps (fun _ _ => True) c := by
  refine (threads_invariant verifier).everywhere (fun s hs => ?_) trivial hc
  obtain ⟨hcache, hlock, hclock, hfetches⟩ := hs
  refine ⟨⟨hclock, ?_, ?_, ?_, ?_, ?_, ?_⟩, fun i => keeps_of_free rfl ?_ trivial⟩
  · simp [hfetches]
  · simp [hfetches]
  · simp [SpacedFetches, hfetches]
  · simp [hfetches, hcache]
  · intro arrival hnonneg harrival
    rw [hcache] at harrival
    exact absurd harrival hnonneg.not_gt
  · intro _
    simp [Stored, hfetches, hcache]
  · simp [hlock]

end AuthorizationServerVerifier

namespace Example.SingleFlight

def answered : String → Except HttpExc Value :=
  (Discovery.site.visit Discovery.first).regular.get

def fetch : Fetch where
  force := false
  now := 11
  fetchedAt := 12
  keys := [(basePointKey.kid, Discovery.jwk)]

/-- While the first thread writes the fields, the second one arrives, finds the
old expiry, and waits for the lock. -/
def events : List (Interleaving.Event Empty KeyAction) := [
  .act 0 (.enter basePointKey.kid), .act 0 (.tick 10), .act 0 .proceed, .act 0 .proceed,
  .act 0 (.tick 11), .act 0 .proceed, .act 0 (.answer answered 12), .act 0 .proceed,
  .act 1 (.enter basePointKey.kid), .act 1 (.tick 13), .act 1 .proceed,
  .act 0 .proceed, .act 0 .proceed, .act 0 .proceed, .act 1 .proceed,
  .act 1 (.tick 14), .act 1 .proceed, .act 1 .proceed, .act 1 .proceed]

def call : KeyCall where
  kid := basePointKey.kid
  arrival := 13
  force := false

/-- The second thread has its key without another fetch. -/
theorem exists_reachable : ∃ c, Discovery.remote.threaded.Reachable c ∧
    c.own 1 = .returned call Discovery.jwk ∧ c.shared.fetches = [fetch] := by
  have hreplay : (Discovery.remote.threaded.replay ⟨{}, fun _ => .idle⟩ events).map
      (fun c => (c.own 1, c.shared.fetches)) = some (.returned call Discovery.jwk, [fetch]) := by
    decide +kernel
  obtain ⟨c, hc, heq⟩ := Option.map_eq_some_iff.mp hreplay
  obtain ⟨hown, hfetches⟩ := Prod.mk.inj heq
  have hstart : Discovery.remote.threaded.Reachable ⟨{}, fun _ => .idle⟩ :=
    .init ⟨⟨rfl, rfl, le_rfl, rfl⟩, fun _ => rfl⟩
  exact ⟨c, hstart.replay hc, hown, hfetches⟩

end Example.SingleFlight

namespace AuthorizationServerVerifier

variable {verifier : AuthorizationServerVerifier} {i : ℕ} {call : KeyCall}
  {c : Config SharedVerifier KeyLookup}

/-- **One fetch at a time.**  The lock is held by the thread inside the `with`
block and by no other, and no successful fetch was due before the limit that an
earlier one has set. -/
theorem single_flight (hc : verifier.threaded.Reachable c) :
    (∀ i, (c.own i).holds = true ↔ c.shared.lock = some i) ∧
      verifier.SpacedFetches c.shared.fetches := by
  have heverywhere := everywhere_of_threaded hc
  exact ⟨fun i => (heverywhere.each i).1, heverywhere.shared.spaced⟩

theorem single_flight_two : ∃ c, Example.Discovery.remote.threaded.Reachable c ∧
    c.shared.lock ≠ some 1 ∧ c.shared.fetches = [Example.SingleFlight.fetch] := by
  obtain ⟨c, hc, hown, hfetches⟩ := Example.SingleFlight.exists_reachable
  refine ⟨c, hc, fun hlock => ?_, hfetches⟩
  have hholds := ((single_flight hc).1 1).mpr hlock
  rw [hown] at hholds
  cases hholds

/-- **No stale key.**  A key that a thread goes on with is from a fetch that
ended after the thread had asked, or less than the lifetime of the cache
before. -/
theorem keys_are_fresh (hc : verifier.threaded.Reachable c) {key : Dict}
    (hreturned : c.own i = .returned call key) :
    ∃ fetch ∈ c.shared.fetches, fetch.keys.lookup call.kid = some key ∧
      verifier.FreshFor call.arrival fetch := by
  have hfits := ((everywhere_of_threaded hc).each i).2
  rw [hreturned] at hfits
  exact hfits

theorem keys_are_fresh_second : ∃ c, Example.Discovery.remote.threaded.Reachable c ∧
    ∃ fetch ∈ c.shared.fetches,
      fetch.keys.lookup Example.basePointKey.kid = some Example.Discovery.jwk ∧
        Example.Discovery.remote.FreshFor 13 fetch := by
  obtain ⟨c, hc, hown, _⟩ := Example.SingleFlight.exists_reachable
  exact ⟨c, hc, keys_are_fresh hc hown⟩

end AuthorizationServerVerifier

end AgentOAuth
