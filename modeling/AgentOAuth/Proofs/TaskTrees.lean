import AgentOAuth.Proofs.ActorRegistration
import AgentOAuth.Proofs.Ledger

/-!
# Tasks are trees

A root draws a task id; every token derived from it carries the same id, the
same tenant and the subject of the root.  All three come from the subject token
of an exchange, so the actor tokens, which may belong to other trees, do not
mix them (`Planted`).  While no root draws an id that is in use already
(`FreshTasks`), two tokens share their task exactly when they share their root,
and the rows of the ledger with one task id are those of one tree
(`task_selects_tree`).
-/

namespace AgentOAuth

open Provenance Transition

/-- Rows and tokens agree on the task. -/
theorem Recorded.taskId_eq_iff {claims claims' : Dict} {row row' : IssuanceRecord}
    (h : Recorded claims row) (h' : Recorded claims' row') :
    row.taskId = row'.taskId ↔ Dict.get claims TASK_CLAIM = Dict.get claims' TASK_CLAIM := by
  rw [h.taskId, h'.taskId]
  cases row.taskId <;> cases row'.taskId <;> simp

namespace Server

variable {server : Server} {w : World} {s : ServerState} {moment : Moment} {request : Request}
  {x : Success} {y : TokenExchangeGrant.Exchange} {a subject actor : Signed}

/-- A root does not draw the task id of an earlier one. -/
def FreshTasks (server : Server) (w : World) : Event → Prop
  | .request moment request => server.isExchange request = false →
      ∀ d ∈ w.issued, Dict.get d.source.claims TASK_CLAIM ≠ .str moment.taskId
  | _ => True

/-! ## One token -/

theorem RootIssue.task (h : server.RootIssue s moment request x a) :
    Dict.get a.claims TASK_CLAIM = .str moment.taskId := h.signedFrom.task

/-- The task of a derived token is that of the subject token. -/
theorem HopIssue.task_eq (h : server.HopIssue s moment request subject actor x y a) {task : String}
    (htask : Dict.get subject.claims TASK_CLAIM = .str task) (hne : task ≠ "") :
    Dict.get a.claims TASK_CLAIM = .str task := by
  have htaskOf : taskOf subject.claims = .ok (some task) := optionalText_eq_some.mpr ⟨htask, hne⟩
  have hread := h.admitted.taskId
  rw [h.subjectClaims, htaskOf, Except.ok.injEq] at hread
  have hsigned := h.signedFrom.task
  rw [show (y.result x.login.form x.login.caller).taskId = some task from hread.symm] at hsigned
  exact hsigned

/-! ## One tree -/

/-- The token carries the task and the tenant of the root of its tree. -/
structure Planted (d : Derivation Signed) : Prop where
  task : ∃ task, task ≠ "" ∧ Dict.get d.source.claims TASK_CLAIM = .str task ∧
    Dict.get d.value.claims TASK_CLAIM = .str task
  tenant : ∃ tenant, Dict.get d.source.claims TENANT_CLAIM = .str tenant ∧
    Dict.get d.value.claims TENANT_CLAIM = .str tenant

theorem planted_of_holds {allowed : World → Event → Prop} {d : Derivation Signed}
    (h : d.Holds (server.RootIssued allowed) (server.HopIssued allowed)) : Planted d := by
  induction h with
  | root ha =>
      obtain ⟨_, moment, _, x, _, _, hissue⟩ := ha
      exact ⟨⟨moment.taskId, moment.taskId_ne, hissue.task, hissue.task⟩,
        ⟨x.login.caller.tenant, hissue.tenant, hissue.tenant⟩⟩
  | derived _ _ ha ihp _ =>
      -- the actor's side has no part in either claim
      obtain ⟨_, _, _, x, y, _, _, _, _, hissue⟩ := ha
      obtain ⟨⟨task, hne, hsource, htask⟩, ⟨tenant, hsourceTenant, htenant⟩⟩ := ihp
      have htenant_eq : y.tenant = tenant := (hissue.tenant_eq htenant).1
      exact ⟨⟨task, hne, hsource, hissue.task_eq htask hne⟩,
        ⟨tenant, hsourceTenant, htenant_eq ▸ hissue.tenant⟩⟩

theorem Planted.task_eq {d : Derivation Signed} (h : Planted d) :
    Dict.get d.value.claims TASK_CLAIM = Dict.get d.source.claims TASK_CLAIM := by
  obtain ⟨task, _, hsource, hvalue⟩ := h.task
  rw [hsource, hvalue]

theorem Planted.tenant_eq {d : Derivation Signed} (h : Planted d) :
    Dict.get d.value.claims TENANT_CLAIM = Dict.get d.source.claims TENANT_CLAIM := by
  obtain ⟨tenant, hsource, hvalue⟩ := h.tenant
  rw [hsource, hvalue]

theorem issued_planted (hw : server.system.Reachable w) : ∀ d ∈ w.issued, Planted d :=
  fun d hd => planted_of_holds (issued_holds_of_reachable hw d hd)

/-! ## Every tree of a run -/

/-- No two roots share a task. -/
def TasksDistinct (w : World) : Prop :=
  ∀ d ∈ w.issued, ∀ d' ∈ w.issued,
    Dict.get d.source.claims TASK_CLAIM = Dict.get d'.source.claims TASK_CLAIM →
      d.source = d'.source

/-- A new root with a task of its own keeps the tasks distinct. -/
theorem TasksDistinct.root (hw : TasksDistinct w) {state : ServerState}
    (hfresh : ∀ d ∈ w.issued, Dict.get d.source.claims TASK_CLAIM ≠ Dict.get a.claims TASK_CLAIM) :
    TasksDistinct { state, issued := .root a :: w.issued } := by
  intro d hd d' hd' htask
  rcases List.mem_cons.mp hd with rfl | hd <;> rcases List.mem_cons.mp hd' with rfl | hd'
  · rfl
  · exact absurd htask.symm (hfresh d' hd')
  · exact absurd htask (hfresh d hd)
  · exact hw d hd d' hd' htask

/-- A derived token adds no root. -/
theorem TasksDistinct.derived (hw : TasksDistinct w) {state : ServerState}
    {subject actor : Derivation Signed} (hsubject : subject ∈ w.issued) :
    TasksDistinct { state, issued := .derived a subject actor :: w.issued } := by
  have hold : ∀ d ∈ (.derived a subject actor :: w.issued : List (Derivation Signed)),
      ∃ e ∈ w.issued, e.source = d.source := by
    intro d hd
    rcases List.mem_cons.mp hd with rfl | hd
    · exact ⟨subject, hsubject, rfl⟩
    · exact ⟨d, hd, rfl⟩
  intro d hd d' hd' htask
  obtain ⟨e, he, hsource⟩ := hold d hd
  obtain ⟨e', he', hsource'⟩ := hold d' hd'
  rw [← hsource, ← hsource'] at htask ⊢
  exact hw e he e' he' htask

theorem tasksDistinct_of_reachable (hw : (server.system.restrict server.FreshTasks).Reachable w) :
    TasksDistinct w := by
  refine hw.invariant_of_restrict (P := TasksDistinct) ?_ ?_
  · rintro w ⟨hissued, _⟩ d hd
    simp [hissued] at hd
  · intro w e w' hreach ih hfresh hstep
    rcases step_cases (issued_genuine hreach) hstep with ⟨hissued, _⟩ |
      ⟨moment, request, x, a, rfl, hissue, rfl⟩ |
      ⟨_, _, subject, actor, x, y, a, _, hsubject, _, _, rfl⟩
    · unfold TasksDistinct
      rwa [hissued]
    · -- the root is the answer to a request that is no exchange, so it drew its id
      have hroot : server.isExchange request = false := by
        by_contra hexchange
        have hgrant := (isExchange_iff hissue.succeeds).mp (by simpa using hexchange)
        exact clientCredentialsGrant_ne (hissue.grant.symm.trans hgrant)
      refine ih.root fun d hd => ?_
      rw [hissue.task]
      exact hfresh hroot d hd
    · exact ih.derived hsubject

/-! ## The rows -/

/-- **Every row of the ledger is that of a token.** -/
theorem recorded_issued (hw : server.system.Reachable w) :
    ∀ row ∈ w.state.issuedCredentials, ∃ d ∈ w.issued, Recorded d.value.claims row := by
  refine hw.invariant
    (P := fun w => ∀ row ∈ w.state.issuedCredentials, ∃ d ∈ w.issued, Recorded d.value.claims row)
    ?_ ?_
  · rintro w ⟨_, _, hrows⟩ row hrow
    simp [Table.mem_iff, hrows] at hrow
  · intro w e w' hw ih hstep
    have hnew : ∀ {moment request x} (d : Derivation Signed),
        server.Succeeds moment request w.state x → Recorded d.value.claims x.issuance.row →
          ∀ row ∈ x.state.issuedCredentials, ∃ d' ∈ d :: w.issued, Recorded d'.value.claims row := by
      intro moment request x d hx hrecorded row hrow
      rw [Table.mem_iff, hx.rows_eq] at hrow
      rcases List.mem_cons.mp hrow with rfl | hrow
      · exact ⟨d, List.mem_cons_self, hrecorded⟩
      · obtain ⟨d', hd', hold⟩ := ih row hrow
        exact ⟨d', List.mem_cons_of_mem _ hd', hold⟩
    rcases step_cases (issued_genuine hw) hstep with ⟨hissued, hledger⟩ |
      ⟨_, _, x, a, _, hissue, rfl⟩ | ⟨_, _, subject, actor, x, y, a, _, _, hactor, hissue, rfl⟩
    · rw [hissued, hledger]
      exact ih
    · exact hnew (.root a) hissue.succeeds hissue.recorded
    · exact hnew (.derived a subject actor) hissue.succeeds
        (hissue.recorded (hissue.actorSubject_ne hw hactor))

/-- **One task is one tree.**  While every root draws a task id of its own, the
rows of the ledger and the issued tokens describe each other, two rows have the
same task exactly when their tokens descend from the same root, and the tokens
of one tree have the subject of the root as their root subject and its tenant
as their tenant. -/
theorem task_selects_tree (hw : (server.system.restrict server.FreshTasks).Reachable w) :
    (∀ row ∈ w.state.issuedCredentials, ∃ d ∈ w.issued, Recorded d.value.claims row) ∧
    (∀ d ∈ w.issued, ∃ row ∈ w.state.issuedCredentials, Recorded d.value.claims row) ∧
    ∀ d ∈ w.issued, ∀ d' ∈ w.issued, ∀ row row', Recorded d.value.claims row →
      Recorded d'.value.claims row' →
        (row.taskId = row'.taskId ↔ d.source = d'.source) ∧
        (d.source = d'.source →
          Dict.get d.source.claims "sub" = .str row.rootSubject ∧
          row.rootSubject = row'.rootSubject ∧
          Dict.get d.value.claims TENANT_CLAIM = Dict.get d'.value.claims TENANT_CLAIM) := by
  have hreach := hw.of_restrict
  refine ⟨recorded_issued hreach, issued_recorded hreach, ?_⟩
  intro d hd d' hd' row row' hrow hrow'
  have hplanted := issued_planted hreach d hd
  have hplanted' := issued_planted hreach d' hd'
  refine ⟨?_, fun hsource => ?_⟩
  · rw [hrow.taskId_eq_iff hrow', hplanted.task_eq, hplanted'.task_eq]
    constructor
    · exact tasksDistinct_of_reachable hw d hd d' hd'
    · intro hsource
      rw [hsource]
  · -- the chain of a token ends in the subject of its root
    have hroot : ∀ d ∈ w.issued, ∀ row, Recorded d.value.claims row →
        row.rootSubject = d.source.subject := by
      intro d hd row hrow
      have hhistory := history_of_holds (issued_holds_of_reachable hreach d hd)
      have hread : root d.value.claims = .ok d.source.subject := root_eq_ok.mpr ⟨_, hhistory.chain⟩
      rw [hrow.rootSubject, Except.ok.injEq] at hread
      exact hread
    have hsub := sub_of_holds (issued_holds_of_reachable hreach d hd) _ List.mem_cons_self
    refine ⟨?_, ?_, ?_⟩
    · rw [hsub, hroot d hd row hrow]
    · rw [hroot d hd row hrow, hroot d' hd' row' hrow', hsource]
    · rw [hplanted.tenant_eq, hplanted'.tenant_eq, hsource]

/-- In the deeper example the second root draws another id than the first. -/
theorem task_selects_tree_deep :
    ∃ w, Example.Deep.server.system.replay Example.Deep.start Example.Deep.events = some w ∧
      w.issued = [Example.Deep.treeR2, Example.Deep.treeR1, Example.Deep.treeB0, Example.Deep.treeR0] ∧
      (∃ row ∈ w.state.issuedCredentials, Recorded Example.Deep.treeR2.value.claims row) ∧
      ∀ row row', Recorded Example.Deep.treeR2.value.claims row →
        (Recorded Example.Deep.treeR0.value.claims row' → row.taskId = row'.taskId) ∧
        (Recorded Example.Deep.treeB0.value.claims row' → row.taskId ≠ row'.taskId) := by
  obtain ⟨w, hreplay, hissued⟩ := Option.map_eq_some_iff.mp Example.Deep.answered_events
  have hfirst : ∀ t, Example.Deep.server.step Example.Deep.start
      (.request (Example.Deep.momentOf 1000 "r0") (Example.ask "r" "x")) = some t →
        t.issued = [Example.Deep.treeR0] := by
    intro t ht
    have hmap : (Example.Deep.server.step Example.Deep.start
        (.request (Example.Deep.momentOf 1000 "r0") (Example.ask "r" "x"))).map World.issued =
          some [Example.Deep.treeR0] := by
      decide +kernel
    simpa [ht] using hmap
  have hstart : (Example.Deep.server.system.restrict Example.Deep.server.FreshTasks).Reachable
      Example.Deep.start := .init ⟨rfl, rfl, rfl⟩
  have hw := hstart.replay_restrict hreplay ⟨by simp [FreshTasks, Example.Deep.start], fun t ht =>
    ⟨?_, fun _ _ => ⟨trivial, fun _ _ => ⟨trivial, fun _ _ => trivial⟩⟩⟩⟩
  · obtain ⟨_, hrows, htask⟩ := task_selects_tree hw
    have hmem : ∀ d ∈ [Example.Deep.treeR2, Example.Deep.treeR1, Example.Deep.treeB0,
        Example.Deep.treeR0], d ∈ w.issued := fun d hd => hissued ▸ hd
    refine ⟨w, hreplay, hissued, hrows _ (hmem _ (by simp)), fun row row' hrow => ⟨?_, ?_⟩⟩
    · intro hrow'
      have hsame := htask _ (hmem _ (by simp)) Example.Deep.treeR0 (hmem _ (by simp)) _ _ hrow hrow'
      exact hsame.1.mpr rfl
    · intro hrow' hsame
      have hsource := (htask _ (hmem _ (by simp)) Example.Deep.treeB0 (hmem _ (by simp)) _ _ hrow
        hrow').1.mp hsame
      exact absurd hsource (by decide +kernel)
  · intro _ d hd
    rw [hfirst t ht, List.mem_singleton] at hd
    subst hd
    decide +kernel

end Server

end AgentOAuth
