import AgentOAuth.Model.TokenBook
import AgentOAuth.Proofs.Movers

/-!
# Interleaved requests are serializable

Statements of different requests interleave in any order, and some requests may
never be finished.  By reduction every request that is done has the outcome it
has somewhere in one run of the world, which executes requests one after
another; every token that was handed out was issued in that run, and the run
leaves the rows that are there, apart from those of requests still in progress.

`Orderly` lists what is asked of the environment: `jti`s are drawn once, nobody
presents a token that verifies before it was handed out, and the registry is
changed between requests.  The server itself changes it at start-up only.
-/

namespace AgentOAuth

open Effect Reduction Provenance Transition Workloads

/-- The server and its requests, each before one of its statements or done. -/
abbrev Requests :=
  Interleaving.Config ServerState (Process Statement.Answer Job Exc TokenResponse)

namespace Requests

/-- A process has been given the request. -/
def Submitted (c : Requests) (moment : Moment) (request : Request) : Prop :=
  ∃ i job k, c.own i = .running job k ∧ job.moment = moment ∧ job.request = request

/-- A request was answered with the token. -/
def HandedOut (c : Requests) (token : String) : Prop :=
  ∃ i job response, c.own i = .running job (.finish (.ok response)) ∧ response.accessToken = token

end Requests

namespace Server

variable (server : Server)

/-- The tokens a request presents, as far as they verify, have been handed out. -/
def PresentsHandedOut (c : Requests) (request : Request) : Prop :=
  ∀ form, readTokenForm server.interpreter request = .ok form →
    ∀ name ∈ ["subject_token", "actor_token"], ∀ token, form.get name = some token →
      ∀ now claims, server.exchange.verify now token = .ok claims → c.HandedOut token

/-- What is asked of the environment of a run. -/
def Orderly (c : Requests) : Interleaving.Event Change (Act Job) → Prop
  | .environment (.administer _ _) => ∀ i, AtRest (c.own i)
  | .environment (.purgeExpired _) => True
  | .act _ (.submit job) =>
      (∀ j other k, c.own j = .running other k → other.Independent job) ∧
        server.PresentsHandedOut c job.request
  | .act _ .advance => True

/-- The interleaved run up to `c`, as a run of the world up to `w`. -/
structure Serialized (c : Requests) (past : List (World × Event)) (w : World) : Prop where
  run : server.system.Run past w
  registry : registry w.state = registry c.shared
  assertionJtis : w.state.assertionJtis = c.shared.assertionJtis
  /-- A request that is done is an event of the run, and ended as it does there. -/
  answered : ∀ i job outcome, c.own i = .running job (.finish outcome) →
    ∃ v e, (v, e) ∈ past ∧ e.IsRequest job.moment job.request ∧
      Effect.outcome ((server.getOauthToken job.moment job.request).run v.state) = outcome
  /-- Nothing else is executed in it. -/
  submitted : ∀ v e, (v, e) ∈ past → ∀ moment request, e.IsRequest moment request →
    c.Submitted moment request
  handedOut : ∀ token, c.HandedOut token → ∃ d ∈ w.issued, d.value.token = token
  recorded : ∀ row ∈ c.shared.issuedCredentials, row ∈ w.state.issuedCredentials
  /-- What is not written yet will be written by a request in progress. -/
  inProgress : ∀ row ∈ w.state.issuedCredentials, row ∈ c.shared.issuedCredentials ∨
    ∃ i job x next, c.own i = .running job (.call x next) ∧ row.jti = job.moment.jti
  settled : (∀ i, AtRest (c.own i)) → SameRows w.state c.shared

/-- The invariant behind it: requests past their claim have their place in the
run of the world. -/
structure Simulated (c : Requests) (past : List (World × Event)) (w : World) (order : List ℕ)
    (promised : ℕ → Except Exc TokenResponse) : Prop where
  run : server.system.Run past w
  reduced : Reduced server.workload SameRows AgentOAuth.registry Statement.IsRead Statement.IsLate
    Job.Uses Job.Independent c w.state order promised
  answered : ∀ i ∈ order, ∀ job k, c.own i = .running job k →
    ∃ v e, (v, e) ∈ past ∧ e.IsRequest job.moment job.request ∧
      Effect.outcome ((server.getOauthToken job.moment job.request).run v.state) = promised i
  submitted : ∀ v e, (v, e) ∈ past → ∀ moment request, e.IsRequest moment request →
    c.Submitted moment request
  issued : ∀ i ∈ order, ∀ response, promised i = .ok response →
    ∃ d ∈ w.issued, d.value.token = response.accessToken
  unforged : ∀ i, i ∉ order → ∀ job k, c.own i = .running job k → server.Unforged w job.request

variable {server} {c c' : Requests} {past : List (World × Event)} {w w' : World} {order : List ℕ}
  {promised : ℕ → Except Exc TokenResponse}

theorem Unforged.mono {request : Request} (h : server.Unforged w request)
    (hissued : w.issued ⊆ w'.issued) : server.Unforged w' request := by
  intro form hform name hname token htoken now claims hclaims
  obtain ⟨d, hd, hvalue⟩ := h form hform name hname token htoken now claims hclaims
  exact ⟨d, hissued hd, hvalue⟩

theorem allowed_of_orderly {e : Interleaving.Event Change (Act Job)} (h : server.Orderly c e) :
    Allowed server.workload SameRows AgentOAuth.registry Statement.IsLate Job.Independent c e := by
  cases e with
  | environment change =>
      cases change with
      | administer clients clientKeys => exact .inr h
      | purgeExpired now => exact .inl (server.quiet_purgeExpired now)
  | act i act =>
      cases act with
      | submit job => exact h.1
      | advance => trivial

namespace Simulated

theorem handedOut (h : server.Simulated c past w order promised) {token : String}
    (htoken : c.HandedOut token) : ∃ d ∈ w.issued, d.value.token = token := by
  obtain ⟨i, job, response, hown, rfl⟩ := htoken
  obtain ⟨hi, hpromised⟩ := h.reduced.mem_of_finish hown
  exact h.issued i hi response hpromised.symm

theorem submitted_step (h : server.Simulated c past w order promised)
    {e : Interleaving.Event Change (Act Job)} (hstep : server.interleaved.step c e = some c')
    {v : World} {event : Event} (hmem : (v, event) ∈ past) {moment : Moment} {request : Request}
    (hevent : event.IsRequest moment request) : c'.Submitted moment request := by
  obtain ⟨i, job, k, hown, hrest⟩ := h.submitted v event hmem moment request hevent
  obtain ⟨k', hown'⟩ := Workload.system_keeps_running hstep hown
  exact ⟨i, job, k', hown', hrest⟩

/-- A request that has not claimed yet, or has just come in, forges nothing. -/
theorem unforged_step (h : server.Simulated c past w order promised)
    {e : Interleaving.Event Change (Act Job)} (horderly : server.Orderly c e)
    (hstep : server.interleaved.step c e = some c') {i : ℕ} (hi : i ∉ order) {job : Job}
    {k : RequestScript TokenResponse} (hown : c'.own i = .running job k) :
    server.Unforged w job.request := by
  rcases Workload.system_running hstep hown with ⟨k', hbefore⟩ | ⟨rfl, _⟩
  · exact h.unforged i hi job k' hbefore
  · intro form hform name hname token htoken now claims hclaims
    exact h.handedOut (horderly.2 form hform name hname token htoken now claims hclaims)

theorem answered_step (h : server.Simulated c past w order promised)
    {e : Interleaving.Event Change (Act Job)} (hstep : server.interleaved.step c e = some c')
    {i : ℕ} (hi : i ∈ order) {job : Job} {k : RequestScript TokenResponse}
    (hown : c'.own i = .running job k) :
    ∃ v e, (v, e) ∈ past ∧ e.IsRequest job.moment job.request ∧
      Effect.outcome ((server.getOauthToken job.moment job.request).run v.state) = promised i := by
  rcases Workload.system_running hstep hown with ⟨k', hbefore⟩ | ⟨_, hidle⟩
  · exact h.answered i hi job k' hbefore
  · obtain ⟨job', k', hrunning, _⟩ := h.reduced.settling i hi
    rw [hidle] at hrunning
    cases hrunning

/-- The run of the world executes the request of process `i` now. -/
theorem commit (h : server.Simulated c past w order promised)
    {e : Interleaving.Event Change (Act Job)} (horderly : server.Orderly c e)
    (hstep : server.interleaved.step c e = some c') {i : ℕ} (hi : i ∉ order) {job : Job}
    {rest : RequestScript TokenResponse} (hown : c'.own i = .running job rest)
    (hreduced : Reduced server.workload SameRows AgentOAuth.registry Statement.IsRead
      Statement.IsLate Job.Uses Job.Independent c'
        ((server.workload.script job).final server.workload.exec w.state) (order ++ [i])
          (Function.update promised i
            ((server.workload.script job).result server.workload.exec w.state))) :
    ∃ past w' promised, server.Simulated c' past w' (order ++ [i]) promised := by
  -- the whole request at once, at the point of its claim
  obtain ⟨event, w', hevent, hworld, hstate, htoken⟩ :=
    @exists_step server w job.moment job.request (h.unforged_step horderly hstep hi hown)
  have hrun : (server.workload.script job).run server.workload.exec =
      server.getOauthToken job.moment job.request := server.run_requestScript _ _
  have hfinal : (server.workload.script job).final server.workload.exec w.state = w'.state := by
    rw [Script.final, hrun, hstate]
  have hresult : (server.workload.script job).result server.workload.exec w.state =
      Effect.outcome ((server.getOauthToken job.moment job.request).run w.state) := by
    rw [Script.result, hrun]
  rw [hfinal, hresult] at hreduced
  have hmono := issued_subset (issued_genuine h.run.reachable) hworld
  refine ⟨_, w', _, .step event h.run hworld, hreduced, fun j hj job' k hownj => ?_,
    fun v e hmem moment request he => ?_, fun j hj response hpromised => ?_,
    fun j hj job' k hownj => ?_⟩
  · by_cases hji : j = i
    · subst hji
      rw [hown] at hownj
      cases hownj
      rw [Function.update_self]
      exact ⟨w, event, List.mem_cons_self, hevent, rfl⟩
    · have hj : j ∈ order := (List.mem_append.mp hj).resolve_right fun hj =>
        hji (List.mem_singleton.mp hj)
      rw [Function.update_of_ne hji]
      obtain ⟨v, e, hmem, hrest⟩ := h.answered_step hstep hj hownj
      exact ⟨v, e, List.mem_cons_of_mem _ hmem, hrest⟩
  · rcases List.mem_cons.mp hmem with heq | hmem
    · obtain ⟨rfl, rfl⟩ := Prod.mk.inj heq
      exact ⟨i, job, rest, hown, hevent.unique he⟩
    · exact h.submitted_step hstep hmem he
  · by_cases hji : j = i
    · subst hji
      rw [Function.update_self] at hpromised
      cases houtcome : (server.getOauthToken job.moment job.request).run w.state with
      | error e t =>
          rw [houtcome] at hpromised
          cases hpromised
      | ok reply t =>
          rw [houtcome] at hpromised
          cases hpromised
          obtain ⟨d, hissued, hvalue⟩ := htoken response t houtcome
          exact ⟨d, hissued ▸ List.mem_cons_self, hvalue⟩
    · have hj : j ∈ order := (List.mem_append.mp hj).resolve_right fun hj =>
        hji (List.mem_singleton.mp hj)
      rw [Function.update_of_ne hji] at hpromised
      obtain ⟨d, hd, hvalue⟩ := h.issued j hj response hpromised
      exact ⟨d, hmono hd, hvalue⟩
  · have hj : j ∉ order := fun hj' => hj (List.mem_append_left _ hj')
    exact (h.unforged_step horderly hstep hj hownj).mono hmono

/-- The step lemma. -/
theorem step (h : server.Simulated c past w order promised)
    {e : Interleaving.Event Change (Act Job)} (horderly : server.Orderly c e)
    (hstep : server.interleaved.step c e = some c') :
    ∃ past w' order promised, server.Simulated c' past w' order promised := by
  rcases h.reduced.step server.movers (allowed_of_orderly horderly) hstep with
    ⟨_, _, _, hreduced⟩ | ⟨i, _, job, rest, _, hi, hown, hreduced⟩ | ⟨change, rfl, hreduced⟩
  · -- no commit: the world stays where it is
    exact ⟨past, w, order, promised, h.run, hreduced, fun i hi job k => h.answered_step hstep hi,
      fun v e hmem moment request => h.submitted_step hstep hmem, h.issued,
      fun i hi job k => h.unforged_step horderly hstep hi⟩
  · obtain ⟨past', w', promised', hsim⟩ := h.commit horderly hstep hi hown hreduced
    exact ⟨past', w', _, promised', hsim⟩
  · -- the same change of the store is an event of the world
    have hworld : ∃ event w', server.system.step w event = some w' ∧
        w' = { w with state := change.apply w.state } ∧
          ∀ moment request, ¬ event.IsRequest moment request := by
      cases change with
      | administer clients clientKeys =>
          exact ⟨.administer clients clientKeys, _, rfl, rfl, fun _ _ h => h⟩
      | purgeExpired now => exact ⟨.purgeExpired now, _, rfl, rfl, fun _ _ h => h⟩
    obtain ⟨event, w', hevent, rfl, hnot⟩ := hworld
    refine ⟨_, _, order, promised, .step event h.run hevent, hreduced, fun i hi job k hown => ?_,
      fun v e hmem moment request he => ?_, h.issued,
      fun i hi job k hown => h.unforged_step horderly hstep hi hown⟩
    · obtain ⟨v, e, hmem, hrest⟩ := h.answered_step hstep hi hown
      exact ⟨v, e, List.mem_cons_of_mem _ hmem, hrest⟩
    · rcases List.mem_cons.mp hmem with heq | hmem
      · obtain ⟨rfl, rfl⟩ := Prod.mk.inj heq
        exact absurd he (hnot moment request)
      · exact h.submitted_step hstep hmem he

end Simulated

/-- Before anything has happened. -/
theorem simulated_init (hc : server.interleaved.init c) :
    server.Simulated c [] { state := c.shared } [] fun _ => .error (.python "") where
  run := .init ⟨rfl, hc.1.1, hc.1.2⟩
  reduced := .start server.movers hc.2 _
  answered i hi := by cases hi
  submitted v e hmem := by cases hmem
  issued i hi := by cases hi
  unforged i _ job k hown := by
    rw [hc.2 i] at hown
    cases hown

/-- The run lemma. -/
theorem exists_simulated (hc : (server.interleaved.restrict server.Orderly).Reachable c) :
    ∃ past w order promised, server.Simulated c past w order promised := by
  refine hc.invariant_of_restrict
    (P := fun c => ∃ past w order promised, server.Simulated c past w order promised)
    (fun c hinit => ⟨_, _, _, _, simulated_init hinit⟩) ?_
  rintro c e c' _ ⟨past, w, order, promised, hsim⟩ horderly hstep
  exact hsim.step horderly hstep

/-- Settling requests past their claim adds rows of requests in progress. -/
theorem mem_settle {row : IssuanceRecord}
    (h : ∀ i ∈ order, ∃ job k, c.own i = .running job k ∧ job.Late k) (s : ServerState)
    (hrow : row ∈ (settle Statement.exec c.own order s).issuedCredentials) :
    row ∈ s.issuedCredentials ∨
      ∃ i job x next, c.own i = .running job (.call x next) ∧ row.jti = job.moment.jti := by
  induction order generalizing s with
  | nil => exact .inl hrow
  | cons i order ih =>
      rw [settle] at hrow
      rcases ih (fun j hj => h j (List.mem_cons_of_mem _ hj)) _ hrow with hrow | hprogress
      · obtain ⟨job, k, hown, hk⟩ := h i List.mem_cons_self
        rw [hown] at hrow
        cases k with
        | finish outcome =>
            rw [Process.settle, Script.final_finish] at hrow
            exact .inl hrow
        | call x next =>
            -- what is left of a request records its own row and no other
            have hown_row : row ∈ ((Script.call x next).final Statement.exec s).issuedCredentials →
                row ∈ s.issuedCredentials ∨ row.jti = job.moment.jti :=
              hk.final_rel
                (R := fun s t => row ∈ t.issuedCredentials →
                  row ∈ s.issuedCredentials ∨ row.jti = job.moment.jti)
                (fun _ hmem => .inl hmem)
                (fun hst htu hmem => (htu hmem).elim hst .inr)
                (fun y hy s hmem => by
                  rcases Statement.mem_ledger_after.2 hmem with hold | ⟨insertFails, rfl⟩
                  · exact .inl hold
                  · exact .inr hy.1) s
            rcases hown_row hrow with hold | hjti
            · exact .inl hold
            · exact .inr ⟨i, job, x, next, hown, hjti⟩
      · exact .inr hprogress

theorem Simulated.serialized (h : server.Simulated c past w order promised) :
    server.Serialized c past w where
  run := h.run
  registry := h.reduced.view_eq server.movers
  assertionJtis := by
    rw [h.reduced.same.assertionJtis]
    exact h.reduced.settle_rel (R := fun s t => t.assertionJtis = s.assertionJtis) (fun _ => rfl)
      (fun hst htu => htu.trans hst) (fun x hx s => Statement.assertionJtis_after_of_isLate hx s)
  answered i job outcome hown := by
    obtain ⟨hi, rfl⟩ := h.reduced.mem_of_finish hown
    exact h.answered i hi job _ hown
  submitted := h.submitted
  handedOut _ := h.handedOut
  recorded row hrow := by
    refine h.reduced.same.issuedCredentials.mem_iff.mpr ?_
    exact h.reduced.settle_rel
      (R := fun s t => row ∈ s.issuedCredentials → row ∈ t.issuedCredentials)
      (fun _ hmem => hmem) (fun hst htu hmem => htu (hst hmem))
      (fun x _ s => Statement.mem_ledger_after.1) hrow
  inProgress row hrow := by
    refine mem_settle (fun i hi => ?_) c.shared (h.reduced.same.issuedCredentials.mem_iff.mp hrow)
    obtain ⟨job, k, hown, hk, _⟩ := h.reduced.settling i hi
    exact ⟨job, k, hown, hk⟩
  settled := h.reduced.same_of_atRest

/-- **Interleaved requests are serializable.** -/
theorem interleaved_serializable (hc : (server.interleaved.restrict server.Orderly).Reachable c) :
    ∃ past w, server.Serialized c past w := by
  obtain ⟨past, w, order, promised, hsim⟩ := exists_simulated hc
  exact ⟨past, w, hsim.serialized⟩

end Server

/-! ### R and A ask at the same time -/

namespace Example.Serializable

def jobR : Job := ⟨momentAt 1000 "R", ask "r" "x y"⟩

def jobA : Job := ⟨momentAt 1010 "A", ask "a" "y"⟩

def start : Requests := ⟨{ clients := registry }, fun _ => .idle⟩

/-- R looks its client up first, and A gets its row in first. -/
def turns : List ℕ := [0, 1, 1, 0, 1, 0]

def both : Requests :=
  ((server.interleaved.replay start
    (.act 0 (.submit jobR) :: .act 1 (.submit jobA) :: turns.map (.act · .advance))).getD start)

/-- The `jti` that an answered request drew, and its token. -/
def reply : Process Statement.Answer Job Exc TokenResponse → Option (String × String)
  | .running job (.finish (.ok response)) => some (job.moment.jti, response.accessToken)
  | _ => none

theorem exists_of_reply {p : Process Statement.Answer Job Exc TokenResponse} {jti token : String}
    (h : reply p = some (jti, token)) :
    ∃ job response, p = .running job (.finish (.ok response)) ∧ job.moment.jti = jti ∧
      response.accessToken = token := by
  unfold reply at h
  split at h
  · next job response =>
      obtain ⟨hjti, htoken⟩ := Prod.mk.inj (Option.some.inj h)
      exact ⟨job, response, rfl, hjti, htoken⟩
  · cases h

/-- A request without tokens presents none. -/
theorem presentsHandedOut_ask (c : Requests) {request : Request}
    (h : (readTokenForm server.interpreter request).toOption.map
      (fun form => (form.get "subject_token", form.get "actor_token")) = some (none, none)) :
    server.PresentsHandedOut c request := by
  intro form hform name hname token htoken
  simp only [hform, Except.toOption, Option.map_some, Option.some.injEq, Prod.mk.injEq] at h
  simp only [List.mem_cons, List.not_mem_nil, or_false] at hname
  rcases hname with rfl | rfl <;> simp [h] at htoken

theorem orderly_turns (c : Requests) :
    server.interleaved.Complies server.Orderly c (turns.map (.act · .advance)) := by
  refine System.complies_of_invariant (P := fun _ => True) (fun _ _ _ _ _ _ => trivial) ?_ trivial
  intro c e he _
  obtain ⟨i, _, rfl⟩ := List.mem_map.mp he
  trivial

theorem reachable_both : (server.interleaved.restrict server.Orderly).Reachable both := by
  have hstart : (server.interleaved.restrict server.Orderly).Reachable start :=
    .init ⟨⟨rfl, rfl⟩, fun _ => rfl⟩
  unfold both
  cases hreplay : server.interleaved.replay start
      (.act 0 (.submit jobR) :: .act 1 (.submit jobA) :: turns.map (.act · .advance)) with
  | none => exact hstart
  | some c =>
      refine hstart.replay_restrict hreplay ⟨⟨?_, ?_⟩, fun t ht => ⟨⟨?_, ?_⟩, fun t' _ => ?_⟩⟩
      · intro j other k hown
        cases hown
      · exact presentsHandedOut_ask _ (by decide +kernel)
      · intro j other k hown
        rcases Workload.system_running ht hown with ⟨_, hidle⟩ | ⟨he, _⟩
        · cases hidle
        · cases he
          change "R" ≠ "A"
          decide
      · exact presentsHandedOut_ask _ (by decide +kernel)
      · exact orderly_turns t'

theorem reply_both : reply (both.own 0) = some ("R", "R") ∧ reply (both.own 1) = some ("A", "A") := by
  decide +kernel

end Example.Serializable

namespace Server

theorem interleaved_serializable_both : ∃ past w,
    Example.server.Serialized Example.Serializable.both past w ∧
      (∃ d ∈ w.issued, d.value.token = "R") ∧ ∃ d ∈ w.issued, d.value.token = "A" := by
  obtain ⟨past, w, hserialized⟩ := interleaved_serializable Example.Serializable.reachable_both
  obtain ⟨jobR, responseR, hownR, _, hR⟩ :=
    Example.Serializable.exists_of_reply Example.Serializable.reply_both.1
  obtain ⟨jobA, responseA, hownA, _, hA⟩ :=
    Example.Serializable.exists_of_reply Example.Serializable.reply_both.2
  exact ⟨past, w, hserialized, hserialized.handedOut "R" ⟨0, jobR, responseR, hownR, hR⟩,
    hserialized.handedOut "A" ⟨1, jobA, responseA, hownA, hA⟩⟩

end Server

end AgentOAuth
