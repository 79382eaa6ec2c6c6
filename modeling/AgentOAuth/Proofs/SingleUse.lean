import AgentOAuth.Lib.Transition
import AgentOAuth.Model.TokenBook

/-!
# Client assertions are used once

`verify` reads the clock and the key table in one step and claims the row of
the assertion in a later one, while a request waits for a connection in
between.  A `Race` interleaves these two steps of any number of requests, in
any number of processes that share the database, with `purge_expired` and with
the clock.

An accepted assertion blocks its `(client_id, jti)` as long as its row is
there.  The insert does not look at the expiry again, so a purge that runs
between the two steps of a second request frees the key (`not_single_use`).
`single_use` is the exact condition: no claim comes after the row of an
accepted assertion with its key was purged.  It is enough that claims come
while the accepted assertion is alive (`single_use_of_timely`).
-/

namespace AgentOAuth

open Transition Effect

/-- The processes and their database, between two steps. -/
structure Race where
  now : ℚ
  state : ServerState
  /-- Requests that passed the check and have not claimed their row yet. -/
  waiting : List ReplayRow := []
  /-- The rows of the authentications that succeeded. -/
  accepted : List ReplayRow := []
  /-- Those of them that `purge_expired` has deleted again. -/
  purged : List ReplayRow := []

/-- The two halves of `verify`, and what goes on beside it. -/
inductive RaceEvent
  | tick (now : ℚ)
  | check (presented : PresentedCredential)
  | claim (row : ReplayRow)
  | purgeExpired
  | administer (clients : ClientTable) (clientKeys : ClientKeyTable)

namespace PrivateKeyJwt

variable {config : PrivateKeyJwt} {w w' : Race} {e : RaceEvent}

/-- A check that passes leaves a row to claim; a claim inserts it, or finds it taken. -/
def raceStep (config : PrivateKeyJwt) (w : Race) : RaceEvent → Option Race
  | .tick now => if w.now ≤ now then some { w with now } else none
  | .check presented =>
      match (do
        let client ← w.state.clients.get presented.clientId
        config.check w.state.clientKeys w.now w.now presented client :
          Except Exc (Option ReplayRow)) with
      | .ok (some row) => some { w with waiting := row :: w.waiting }
      | _ => some w
  | .claim row =>
      if row ∈ w.waiting then
        let waiting := w.waiting.erase row
        -- the insert takes no reading of the clock
        match (claimAssertion row).run w.state with
        | .ok true state => some { w with state, waiting, accepted := row :: w.accepted }
        | .ok false state => some { w with state, waiting }
        | .error _ state => some { w with state, waiting }
      else none
  | .purgeExpired =>
      some { w with
        state := { w.state with assertionJtis := w.state.assertionJtis.purgeExpired w.now }
        purged := w.accepted.filter fun row => row.expiresAt < w.now }
  | .administer clients clientKeys => some { w with state := { w.state with clients, clientKeys } }

/-- Any database, no request under way. -/
def race (config : PrivateKeyJwt) : System Race RaceEvent where
  init w := w.waiting = [] ∧ w.accepted = [] ∧ w.purged = []
  step := config.raceStep

/-- An authentication that nothing interrupts is a check and a claim. -/
theorem race_of_verify {moment : Moment} {presented : PresentedCredential}
    {client : Option RegisteredClient} {t : ServerState}
    (hclient : w.state.clients.get presented.clientId = .ok client)
    (hdecoded : moment.assertionDecoded = w.now) (hchecked : moment.assertionChecked = w.now)
    (h : (config.verify moment presented client).run w.state = .ok true t) :
    ∃ row waiting, config.raceStep w (.check presented) = some waiting ∧
      config.raceStep waiting (.claim row) =
        some { w with state := t, accepted := row :: w.accepted } := by
  obtain ⟨row, hcheck, _, hclaim⟩ := verify_eq_ok_true.mp h
  rw [hdecoded, hchecked] at hcheck
  refine ⟨row, { w with waiting := row :: w.waiting }, ?_, ?_⟩
  · simp only [raceStep, bind_eq_ok.mpr ⟨client, hclient, hcheck⟩]
  · simp [raceStep, hclaim]

/-! ## One step -/

/-- **What one step can do**: leave the rows and the accepted requests alone
while time passes, accept one request, or purge. -/
theorem raceStep_cases (h : config.raceStep w e = some w') :
    (w'.accepted = w.accepted ∧ w'.state.assertionJtis = w.state.assertionJtis ∧
      w'.purged = w.purged ∧ w.now ≤ w'.now) ∨
    (∃ row, e = .claim row ∧ (claimAssertion row).run w.state = .ok true w'.state ∧
      w'.accepted = row :: w.accepted ∧ w'.purged = w.purged ∧ w'.now = w.now) ∨
    e = .purgeExpired ∧ w'.accepted = w.accepted ∧
      w'.state.assertionJtis = w.state.assertionJtis.purgeExpired w.now ∧
        (w'.purged = w.accepted.filter fun row => row.expiresAt < w.now) ∧ w'.now = w.now := by
  cases e with
  | tick now =>
      simp only [raceStep] at h
      split at h
      · next hle =>
          obtain rfl := Option.some.inj h
          exact .inl ⟨rfl, rfl, rfl, hle⟩
      · simp at h
  | check presented =>
      simp only [raceStep] at h
      split at h <;> obtain rfl := Option.some.inj h <;> exact .inl ⟨rfl, rfl, rfl, le_rfl⟩
  | claim row =>
      simp only [raceStep] at h
      split at h
      · split at h
        · next state hclaim =>
            obtain rfl := Option.some.inj h
            exact .inr (.inl ⟨row, rfl, hclaim, rfl, rfl, rfl⟩)
        · next state hclaim =>
            obtain rfl := Option.some.inj h
            obtain rfl := claimAssertion_eq_ok_false hclaim
            exact .inl ⟨rfl, rfl, rfl, le_rfl⟩
        · next state hclaim =>
            obtain rfl := Option.some.inj h
            obtain rfl := claimAssertion_eq_error hclaim
            exact .inl ⟨rfl, rfl, rfl, le_rfl⟩
      · simp at h
  | purgeExpired =>
      obtain rfl := Option.some.inj h
      exact .inr (.inr ⟨rfl, rfl, rfl, rfl, rfl⟩)
  | administer clients clientKeys =>
      obtain rfl := Option.some.inj h
      exact .inl ⟨rfl, rfl, rfl, le_rfl⟩

/-- A claim is accepted when its insert writes a row. -/
theorem claim_accepted_iff {row : ReplayRow} (h : config.raceStep w (.claim row) = some w') :
    w'.accepted = row :: w.accepted ↔ ∃ t, (claimAssertion row).run w.state = .ok true t := by
  simp only [raceStep] at h
  split at h
  · split at h <;> next state hclaim =>
      obtain rfl := Option.some.inj h
      simp [hclaim]
  · simp at h

/-! ## The rows of accepted requests -/

/-- Only expired rows of accepted requests are purged. -/
structure Clocked (w : Race) : Prop where
  mem_accepted : ∀ row ∈ w.purged, row ∈ w.accepted
  expired : ∀ row ∈ w.purged, row.expiresAt < w.now

theorem Clocked.step (hw : Clocked w) (h : config.raceStep w e = some w') : Clocked w' := by
  rcases raceStep_cases h with ⟨haccepted, _, hpurged, hnow⟩ |
    ⟨row, _, _, haccepted, hpurged, hnow⟩ | ⟨_, haccepted, _, hpurged, hnow⟩
  · refine ⟨?_, ?_⟩ <;> rw [hpurged]
    · exact haccepted ▸ hw.mem_accepted
    · exact fun row hrow => (hw.expired row hrow).trans_le hnow
  · refine ⟨?_, ?_⟩ <;> rw [hpurged]
    · exact fun row hrow => haccepted ▸ List.mem_cons_of_mem _ (hw.mem_accepted row hrow)
    · exact hnow ▸ hw.expired
  · refine ⟨?_, ?_⟩ <;> rw [hpurged] <;> intro row hrow <;>
      obtain ⟨hmem, hexpired⟩ := List.mem_filter.mp hrow
    · exact haccepted ▸ hmem
    · exact hnow ▸ of_decide_eq_true hexpired

theorem clocked_of_reachable (hw : config.race.Reachable w) : Clocked w := by
  refine hw.invariant (P := Clocked) ?_ fun _ _ _ _ ih hstep => ih.step hstep
  rintro w ⟨_, _, hpurged⟩
  exact ⟨by simp [hpurged], by simp [hpurged]⟩

/-- The row of an accepted request is found under its key until it is purged,
and then none is. -/
structure Guarded (w : Race) : Prop where
  nodup : (w.accepted.map ReplayRow.primaryKey).Nodup
  text : ∀ row ∈ w.accepted, textParameter row.clientId = .ok () ∧ textParameter row.jti = .ok ()
  found : ∀ row ∈ w.accepted, row ∉ w.purged →
    w.state.assertionJtis.find row.primaryKey = some row
  free : ∀ row ∈ w.purged, w.state.assertionJtis.find row.primaryKey = none

/-- No claim comes after the row of an accepted request with its key was
purged. -/
def BeforePurge (w : Race) : RaceEvent → Prop
  | .claim row => ∀ other ∈ w.purged, other.primaryKey ≠ row.primaryKey
  | _ => True

/-- A claim that is accepted in time is the first for its key. -/
theorem Guarded.fresh (hw : Guarded w) {row : ReplayRow} {s : ServerState}
    (hbefore : BeforePurge w (.claim row)) (h : (claimAssertion row).run w.state = .ok true s) :
    ∀ other ∈ w.accepted, other.primaryKey ≠ row.primaryKey := by
  intro other hother hkey
  obtain ⟨_, _, written, hinsert, _⟩ := claimAssertion_eq_ok_true.mp h
  have hfree := (Table.insert_eq_some.mp hinsert).1
  rw [← hkey, hw.found other hother fun hpurged => hbefore other hpurged hkey] at hfree
  simp at hfree

theorem Guarded.claim (hw : Guarded w) (hclocked : Clocked w) {row : ReplayRow}
    (hbefore : BeforePurge w (.claim row))
    (h : (claimAssertion row).run w.state = .ok true w'.state)
    (haccepted : w'.accepted = row :: w.accepted) (hpurged : w'.purged = w.purged) :
    Guarded w' := by
  have hfresh := hw.fresh hbefore h
  obtain ⟨hclientId, hjti, written, hinsert, hstate⟩ := claimAssertion_eq_ok_true.mp h
  -- the new row has a key of its own, so the rows before stay where they are
  have hkept : ∀ other ∈ w.accepted, w'.state.assertionJtis.find other.primaryKey =
      w.state.assertionJtis.find other.primaryKey := by
    intro other hother
    rw [hstate]
    exact Table.find_insert_of_ne hinsert (hfresh other hother).symm
  refine ⟨?_, ?_, ?_, ?_⟩
  · rw [haccepted, List.map_cons, List.nodup_cons]
    refine ⟨fun hmem => ?_, hw.nodup⟩
    obtain ⟨other, hother, hkey⟩ := List.mem_map.mp hmem
    exact hfresh other hother hkey
  · rw [haccepted]
    exact List.forall_mem_cons.mpr ⟨⟨hclientId, hjti⟩, hw.text⟩
  · rw [haccepted, hpurged]
    refine List.forall_mem_cons.mpr ⟨fun _ => ?_, fun other hother hnot => ?_⟩
    · rw [hstate]
      exact Table.find_insert_self hinsert
    · rw [hkept other hother]
      exact hw.found other hother hnot
  · rw [hpurged]
    intro other hother
    rw [hkept other (hclocked.mem_accepted other hother)]
    exact hw.free other hother

theorem Guarded.purge (hw : Guarded w) (hclocked : Clocked w)
    (haccepted : w'.accepted = w.accepted)
    (hrows : w'.state.assertionJtis = w.state.assertionJtis.purgeExpired w.now)
    (hpurged : w'.purged = w.accepted.filter fun row => row.expiresAt < w.now) : Guarded w' := by
  refine ⟨haccepted ▸ hw.nodup, haccepted ▸ hw.text, ?_, ?_⟩
  · rw [haccepted, hpurged, hrows]
    intro row hrow hnot
    -- not purged now, so not expired, so not purged before
    have halive : ¬ row.expiresAt < w.now := fun hexpired =>
      hnot (List.mem_filter.mpr ⟨hrow, decide_eq_true hexpired⟩)
    have hfound := hw.found row hrow fun hold => halive (hclocked.expired row hold)
    exact Table.find_deleteWhere_of_mem (Table.find_eq_some.mp hfound).1 (decide_eq_false halive)
  · rw [hpurged, hrows]
    intro row hrow
    obtain ⟨hmem, hexpired⟩ := List.mem_filter.mp hrow
    refine Table.find_deleteWhere_eq_none fun other hother => ?_
    by_cases hold : row ∈ w.purged
    · simp [hw.free row hold] at hother
    · obtain rfl : row = other := by simpa [hw.found row hmem hold] using hother
      exact hexpired

theorem guarded_of_reachable (hw : (config.race.restrict BeforePurge).Reachable w) : Guarded w := by
  refine hw.invariant_of_restrict (P := Guarded) ?_ ?_
  · rintro w ⟨_, haccepted, hpurged⟩
    constructor <;> simp [haccepted, hpurged]
  · intro w e w' hreach ih hbefore hstep
    have hclocked := clocked_of_reachable hreach
    rcases raceStep_cases hstep with ⟨haccepted, hrows, hpurged, _⟩ |
      ⟨row, rfl, hclaim, haccepted, hpurged, _⟩ | ⟨_, haccepted, hrows, hpurged, _⟩
    · refine ⟨haccepted ▸ ih.nodup, haccepted ▸ ih.text, ?_, ?_⟩
      · rw [haccepted, hpurged, hrows]
        exact ih.found
      · rw [hpurged, hrows]
        exact ih.free
    · exact ih.claim hclocked hbefore hclaim haccepted hpurged
    · exact ih.purge hclocked haccepted hrows hpurged

/-! ## At most one -/

end PrivateKeyJwt

namespace Example

def rowK : ReplayRow := ⟨"k", "once", 1300⟩

def raceStart : Race := { now := 1000, state := keyedState }

/-- Two requests with K's assertion pass the check and one claims it; it
expires, its row is purged, and then the other request claims it. -/
def raceEvents : List RaceEvent :=
  [.check presentedK, .check presentedK, .claim rowK, .tick 1301, .purgeExpired, .claim rowK]

theorem accepted_once : (server.assertions.race.replay raceStart (raceEvents.take 3)).map
    Race.accepted = some [rowK] := by
  decide +kernel

theorem accepted_twice : (server.assertions.race.replay raceStart raceEvents).map
    Race.accepted = some [rowK, rowK] := by
  decide +kernel

end Example

namespace PrivateKeyJwt

variable {config : PrivateKeyJwt} {w : Race}

/-- **Single use.**  While no claim comes after the row of an accepted request
with its key was purged, at most one request is accepted for every
`(client_id, jti)`; and the next claim for such a key would be accepted again
exactly when that row was purged. -/
theorem single_use (hw : (config.race.restrict BeforePurge).Reachable w) :
    (w.accepted.map ReplayRow.primaryKey).Nodup ∧
    ∀ first ∈ w.accepted, ∀ row w', first.primaryKey = row.primaryKey →
      config.raceStep w (.claim row) = some w' →
        (w'.accepted = row :: w.accepted ↔ first ∈ w.purged) := by
  have hguarded := guarded_of_reachable hw
  refine ⟨hguarded.nodup, fun first hfirst row w' hkey hstep => ?_⟩
  rw [claim_accepted_iff hstep]
  constructor
  · -- an insert finds the key free, which it is not before the purge
    rintro ⟨t, hclaim⟩
    by_contra hnot
    obtain ⟨_, _, written, hinsert, _⟩ := claimAssertion_eq_ok_true.mp hclaim
    have hfree := (Table.insert_eq_some.mp hinsert).1
    rw [← hkey, hguarded.found first hfirst hnot] at hfree
    simp at hfree
  · intro hpurged
    obtain ⟨hclientId, hjti⟩ := hguarded.text first hfirst
    rw [show first.clientId = row.clientId from congrArg Prod.fst hkey] at hclientId
    rw [show first.jti = row.jti from congrArg Prod.snd hkey] at hjti
    have hfree := hguarded.free first hpurged
    rw [hkey] at hfree
    cases hinsert : w.state.assertionJtis.insert row with
    | none => exact absurd hfree (Table.insert_eq_none.mp hinsert)
    | some written =>
        exact ⟨_, claimAssertion_eq_ok_true.mpr ⟨hclientId, hjti, written, hinsert, rfl⟩⟩

theorem single_use_rowK :
    ∃ w, Example.server.assertions.race.replay Example.raceStart (Example.raceEvents.take 3) = some w ∧
      w.accepted = [Example.rowK] ∧ (w.accepted.map ReplayRow.primaryKey).Nodup := by
  obtain ⟨w, hreplay, haccepted⟩ := Option.map_eq_some_iff.mp Example.accepted_once
  have hstart : (Example.server.assertions.race.restrict BeforePurge).Reachable Example.raceStart :=
    .init ⟨rfl, rfl, rfl⟩
  refine ⟨w, hreplay, haccepted, (single_use (hstart.replay_restrict hreplay ?_)).1⟩
  refine System.complies_of_invariant (P := fun w => w.purged = []) ?_ ?_ rfl
  · intro w e he w' hpurged hstep
    have hne : e ≠ .purgeExpired := by
      rintro rfl
      simp [Example.raceEvents] at he
    rcases raceStep_cases hstep with ⟨_, _, hsame, _⟩ | ⟨_, _, _, _, hsame, _⟩ | ⟨rfl, _⟩
    · exact hsame.trans hpurged
    · exact hsame.trans hpurged
    · exact absurd rfl hne
  · intro w e _ hpurged
    cases e <;> simp [BeforePurge, hpurged]

/-- Without the condition an assertion can be used twice: two requests pass the
check, the second claims its row after the first one's has been purged. -/
theorem not_single_use :
    ¬ ∀ (config : PrivateKeyJwt) (w : Race), config.race.Reachable w →
      (w.accepted.map ReplayRow.primaryKey).Nodup := by
  intro hclaim
  obtain ⟨w, hreplay, haccepted⟩ := Option.map_eq_some_iff.mp Example.accepted_twice
  have hstart : Example.server.assertions.race.Reachable Example.raceStart := .init ⟨rfl, rfl, rfl⟩
  have hnodup := hclaim _ w (hstart.replay hreplay)
  rw [haccepted] at hnodup
  exact absurd hnodup (by decide)

/-- A claim comes while the accepted assertions with its key are still alive. -/
def Timely (w : Race) : RaceEvent → Prop
  | .claim row => ∀ other ∈ w.accepted, other.primaryKey = row.primaryKey → w.now ≤ other.expiresAt
  | _ => True

/-- **Claims in time are safe**, whenever purges run. -/
theorem single_use_of_timely (hw : (config.race.restrict Timely).Reachable w) :
    (w.accepted.map ReplayRow.primaryKey).Nodup := by
  suffices hbefore : (config.race.restrict BeforePurge).Reachable w from
    (guarded_of_reachable hbefore).nodup
  induction hw with
  | init hinit => exact .init hinit
  | @step w w' e hw hstep ih =>
      obtain ⟨htimely, hstep⟩ := System.restrict_step_eq_some.mp hstep
      refine ih.step e (System.restrict_step_eq_some.mpr ⟨?_, hstep⟩)
      have hclocked := clocked_of_reachable hw.of_restrict
      cases e with
      | claim row =>
          intro other hother hkey
          have halive := htimely other (hclocked.mem_accepted other hother) hkey
          exact absurd (hclocked.expired other hother) (not_lt.mpr halive)
      | _ => trivial

end PrivateKeyJwt

end AgentOAuth
