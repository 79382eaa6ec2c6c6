import AgentOAuth.Model.Migrations

/-!
# Each migration takes effect once

Any number of runs of `migrate` overlap, any statement of theirs may fail, and
files are added at any time.  What is committed of `schema_version` and of the
files' SQL stays the same list without repetitions (`Consistent`): a run inserts
the name of every file whose SQL it executes, the insert is refused for a name
that is committed and waits for a name another run has inserted.  The earlier
read of the applied names only decides which files a run tries.
-/

namespace AgentOAuth

open Interleaving Transition

namespace Migrations

variable {s s' : Shared} {i j : ℕ} {run run' : Run} {action : RunAction} {loop : Loop}

/-! ## What a step does to the database -/

theorem versions_commit (writes : List Write) :
    (s.commit i writes).versions = s.versions ++ writes.filterMap Write.versionName := by
  simp [Shared.versions, Shared.commit, List.filterMap_append, List.filterMap_map]

theorem effects_commit (writes : List Write) :
    (s.commit i writes).effects = s.effects ++ writes.filterMap Write.sqlName := by
  simp [Shared.effects, Shared.commit, List.filterMap_append, List.filterMap_map]

theorem mem_pending_without {k : ℕ} {name : String} :
    (k, name) ∈ s.pending.filter (fun entry => entry.1 ≠ i) ↔ (k, name) ∈ s.pending ∧ k ≠ i := by
  simp

/-- Committed writes stay, what is new carries the number of the run, and the rows
of other open transactions stay. -/
structure Extends (i : ℕ) (s s' : Shared) : Prop where
  files : s'.files = s.files
  versions : ∀ name ∈ s.versions, name ∈ s'.versions
  committed : ∀ entry ∈ s'.committed, entry ∈ s.committed ∨ entry.1 = i
  pending : ∀ k name, k ≠ i → (k, name) ∈ s.pending → (k, name) ∈ s'.pending

theorem extends_refl : Extends i s s where
  files := rfl
  versions _ h := h
  committed _ h := .inl h
  pending _ _ _ h := h

theorem extends_rollback : Extends i s (s.rollback i) where
  files := rfl
  versions _ h := h
  committed _ h := .inl h
  pending _ _ hk h := mem_pending_without.mpr ⟨h, hk⟩

theorem extends_insert (name : String) :
    Extends i s { s with pending := (i, name) :: s.pending } where
  files := rfl
  versions _ h := h
  committed _ h := .inl h
  pending _ _ _ h := List.mem_cons_of_mem _ h

theorem extends_commit (writes : List Write) : Extends i s (s.commit i writes) where
  files := rfl
  versions name h := by
    rw [versions_commit]
    exact List.mem_append_left _ h
  committed entry h := by
    rcases List.mem_append.mp h with hold | hnew
    · exact .inl hold
    · obtain ⟨write, _, rfl⟩ := List.mem_map.mp hnew
      exact .inr rfl
  pending _ _ hk h := mem_pending_without.mpr ⟨h, hk⟩

/-! ## The invariant -/

/-- The committed names are the files whose SQL is committed, each of them once;
an open transaction has inserted names that nobody else has. -/
structure Consistent (s : Shared) : Prop where
  same : s.effects = s.versions
  once : s.versions.Nodup
  files : s.files.Nodup
  fresh : ∀ k name, (k, name) ∈ s.pending → name ∉ s.versions
  owner : ∀ k l name, (k, name) ∈ s.pending → (l, name) ∈ s.pending → k = l

/-- A run inside its loop: it has come through `done`, has executed the SQL of
`next` but not recorded it, and has inserted the name of every file it ran. -/
structure InLoop (i : ℕ) (s : Shared) (loop : Loop) (done next : List String) : Prop where
  listed : loop.listed.Nodup
  applied : ∀ name ∈ loop.applied, name ∈ s.versions
  order : sorted loop.listed = done ++ next ++ loop.todo
  ran : loop.ran = done.filter (· ∉ loop.applied)
  unapplied : ∀ name ∈ next, name ∉ loop.applied
  inserted : ∀ name ∈ loop.ran, (i, name) ∈ s.pending
  versions : loop.writes.filterMap Write.versionName = loop.ran
  effects : loop.writes.filterMap Write.sqlName = loop.ran ++ next

/-- What a run may rely on at each point. -/
def Holds (i : ℕ) (s : Shared) : Run → Prop
  | .creating => True
  | .selecting => True
  | .listing applied => ∀ name ∈ applied, name ∈ s.versions
  | .applying loop => ∃ done, InLoop i s loop done []
  | .recording name loop => ∃ done, InLoop i s loop done [name]
  | .returned listed _ => ∀ name ∈ listed, name ∈ s.versions
  | .failed => True

/-- A run that has not returned has committed nothing. -/
def Uncommitted (i : ℕ) (s : Shared) (run : Run) : Prop :=
  (∀ listed ran, run ≠ .returned listed ran) → ∀ entry ∈ s.committed, entry.1 ≠ i

theorem InLoop.of_extends {done next : List String} (h : InLoop j s loop done next)
    (hextends : Extends i s s') (hij : i ≠ j) : InLoop j s' loop done next :=
  { h with
    applied := fun name hname => hextends.versions name (h.applied name hname)
    inserted := fun name hname => hextends.pending j name (Ne.symm hij) (h.inserted name hname) }

/-- What a run relies on survives the steps of the others. -/
theorem Holds.of_extends (h : Holds j s run) (hextends : Extends i s s') (hij : i ≠ j) :
    Holds j s' run := by
  cases run with
  | listing applied => exact fun name hname => hextends.versions name (h name hname)
  | applying loop =>
      obtain ⟨done, hloop⟩ := h
      exact ⟨done, hloop.of_extends hextends hij⟩
  | recording name loop =>
      obtain ⟨done, hloop⟩ := h
      exact ⟨done, hloop.of_extends hextends hij⟩
  | returned listed ran => exact fun name hname => hextends.versions name (h name hname)
  | _ => trivial

theorem Uncommitted.of_extends (h : Uncommitted j s run) (hextends : Extends i s s') (hij : i ≠ j) :
    Uncommitted j s' run := by
  intro hrun entry hentry
  rcases hextends.committed entry hentry with hold | rfl
  · exact h hrun entry hold
  · exact hij

/-! ## The statements -/

theorem Consistent.rollback (h : Consistent s) (i : ℕ) : Consistent (s.rollback i) where
  same := h.same
  once := h.once
  files := h.files
  fresh k name hk := h.fresh k name (mem_pending_without.mp hk).1
  owner k l name hk hl :=
    h.owner k l name (mem_pending_without.mp hk).1 (mem_pending_without.mp hl).1

/-- An insert that neither fails nor waits. -/
theorem Consistent.insert (h : Consistent s) {name : String} (hnew : name ∉ s.versions)
    (hfree : ∀ k, (k, name) ∉ s.pending) (i : ℕ) :
    Consistent { s with pending := (i, name) :: s.pending } where
  same := h.same
  once := h.once
  files := h.files
  fresh k other hk := by
    rcases List.mem_cons.mp hk with heq | hold
    · obtain ⟨_, rfl⟩ := Prod.mk.inj heq
      exact hnew
    · exact h.fresh k other hold
  owner k l other hk hl := by
    rcases List.mem_cons.mp hk with heq | hold <;> rcases List.mem_cons.mp hl with heq' | hold'
    · exact (Prod.mk.inj heq).1.trans (Prod.mk.inj heq').1.symm
    · obtain ⟨_, rfl⟩ := Prod.mk.inj heq
      exact absurd hold' (hfree l)
    · obtain ⟨_, rfl⟩ := Prod.mk.inj heq'
      exact absurd hold (hfree k)
    · exact h.owner k l other hold hold'

theorem InLoop.ran_nodup {done next : List String} (h : InLoop i s loop done next) :
    loop.ran.Nodup := by
  have hsorted := sorted_nodup h.listed
  rw [h.order, List.append_assoc] at hsorted
  rw [h.ran]
  exact (List.nodup_append.mp hsorted).1.filter _

/-- A commit adds the files of the run, none of which is there. -/
theorem Consistent.commit (h : Consistent s) {done : List String}
    (hloop : InLoop i s loop done []) :
    Consistent (s.commit i loop.writes) := by
  have hversions : (s.commit i loop.writes).versions = s.versions ++ loop.ran := by
    rw [versions_commit, hloop.versions]
  refine ⟨?_, ?_, h.files, ?_, ?_⟩
  · rw [hversions, effects_commit, hloop.effects, List.append_nil, h.same]
  · rw [hversions]
    refine h.once.append hloop.ran_nodup fun name hold hran => ?_
    exact h.fresh i name (hloop.inserted name hran) hold
  · intro k name hk hname
    obtain ⟨hpending, hne⟩ := mem_pending_without.mp hk
    rw [hversions] at hname
    rcases List.mem_append.mp hname with hold | hran
    · exact h.fresh k name hpending hold
    · exact hne (h.owner k i name hpending (hloop.inserted name hran))
  · intro k l name hk hl
    exact h.owner k l name (mem_pending_without.mp hk).1 (mem_pending_without.mp hl).1

/-- At the end of the loop the run has run exactly the listed files whose names
are not committed. -/
theorem InLoop.ran_eq (h : Consistent s) {done : List String} (hloop : InLoop i s loop done [])
    (htodo : loop.todo = []) : loop.ran = (sorted loop.listed).filter (· ∉ s.versions) := by
  have horder := hloop.order
  rw [htodo, List.append_nil, List.append_nil] at horder
  rw [horder, hloop.ran]
  refine List.filter_congr fun name hname => ?_
  by_cases happlied : name ∈ loop.applied
  · simp [happlied, hloop.applied name happlied]
  · have hran : name ∈ loop.ran := by
      rw [hloop.ran]
      simp [hname, happlied]
    simp [happlied, h.fresh i name (hloop.inserted name hran)]

/-- A file whose name the run has read is passed over. -/
theorem InLoop.skip {done todo : List String} {name : String} (h : InLoop i s loop done [])
    (htodo : loop.todo = name :: todo) (happlied : name ∈ loop.applied) :
    InLoop i s { loop with todo } (done ++ [name]) [] :=
  { h with
    order := by
      have horder := h.order
      rw [htodo] at horder
      simpa using horder
    ran := by
      rw [List.filter_append, h.ran]
      simp [happlied] }

/-- The SQL of a file is executed. -/
theorem InLoop.execute {done todo : List String} {name : String} (h : InLoop i s loop done [])
    (htodo : loop.todo = name :: todo) (hnew : name ∉ loop.applied) :
    InLoop i s { loop with todo, writes := loop.writes ++ [.sql name] } done [name] :=
  { h with
    order := by
      have horder := h.order
      rw [htodo] at horder
      simpa using horder
    unapplied := by simpa using hnew
    versions := by simp [List.filterMap_append, h.versions, Write.versionName]
    effects := by simp [List.filterMap_append, h.effects, Write.sqlName] }

/-- The name of that file is inserted. -/
theorem InLoop.record {done : List String} {name : String} (h : InLoop i s loop done [name]) :
    InLoop i { s with pending := (i, name) :: s.pending }
      { loop with ran := loop.ran ++ [name], writes := loop.writes ++ [.version name] }
      (done ++ [name]) [] where
  listed := h.listed
  applied := h.applied
  order := by simpa using h.order
  ran := by
    have hnew := h.unapplied name (by simp)
    rw [List.filter_append, ← h.ran]
    simp [hnew]
  unapplied := by simp
  inserted other hother := by
    rcases List.mem_append.mp hother with hold | hlast
    · exact List.mem_cons_of_mem _ (h.inserted other hold)
    · obtain rfl := List.mem_singleton.mp hlast
      exact List.mem_cons_self
  versions := by simp [List.filterMap_append, h.versions, Write.versionName]
  effects := by simp [List.filterMap_append, h.effects, Write.sqlName]

/-- All that the next statement of a run can do. -/
inductive Moves (i : ℕ) (s : Shared) : Run → Shared → Run → Prop
  /-- A failure, or the insert of a name that is committed. -/
  | rollback {run : Run} (hopen : ∀ listed ran, run ≠ .returned listed ran) :
      Moves i s run (s.rollback i) .failed
  | create : Moves i s .creating s .selecting
  | select : Moves i s .selecting s (.listing s.versions)
  | list (applied : List String) :
      Moves i s (.listing applied) s
        (.applying { applied, listed := s.files, todo := sorted s.files })
  | skip {loop : Loop} {name : String} {todo : List String} (htodo : loop.todo = name :: todo)
      (happlied : name ∈ loop.applied) :
      Moves i s (.applying loop) s (.applying { loop with todo })
  | execute {loop : Loop} {name : String} {todo : List String} (htodo : loop.todo = name :: todo)
      (hnew : name ∉ loop.applied) :
      Moves i s (.applying loop) s
        (.recording name { loop with todo, writes := loop.writes ++ [.sql name] })
  | record {loop : Loop} {name : String} (hnew : name ∉ s.versions)
      (hfree : ∀ k, (k, name) ∉ s.pending) :
      Moves i s (.recording name loop) { s with pending := (i, name) :: s.pending }
        (.applying { loop with
          ran := loop.ran ++ [name]
          writes := loop.writes ++ [.version name] })
  | commit {loop : Loop} (htodo : loop.todo = []) :
      Moves i s (.applying loop) (s.commit i loop.writes) (.returned loop.listed loop.ran)

theorem moves_of_step (h : step i s run action = some (s', run')) : Moves i s run s' run' := by
  cases action with
  | fail =>
      have hopen : ∀ listed ran, run ≠ .returned listed ran := by
        intro listed ran hrun
        rw [hrun] at h
        exact absurd h (by simp [step])
      have hrollback : s.rollback i = s' ∧ Run.failed = run' := by
        cases run <;> simp [step] at h <;> exact h
      obtain ⟨rfl, rfl⟩ := hrollback
      exact .rollback hopen
  | proceed =>
      cases run with
      | creating =>
          obtain ⟨rfl, rfl⟩ := Prod.mk.inj (Option.some.inj h)
          exact .create
      | selecting =>
          obtain ⟨rfl, rfl⟩ := Prod.mk.inj (Option.some.inj h)
          exact .select
      | listing applied =>
          obtain ⟨rfl, rfl⟩ := Prod.mk.inj (Option.some.inj h)
          exact .list applied
      | applying loop =>
          simp only [step] at h
          split at h
          · next htodo =>
              obtain ⟨rfl, rfl⟩ := Prod.mk.inj (Option.some.inj h)
              exact .commit htodo
          · next name todo htodo =>
              split at h
              · next happlied =>
                  obtain ⟨rfl, rfl⟩ := Prod.mk.inj (Option.some.inj h)
                  exact .skip htodo happlied
              · next hnew =>
                  obtain ⟨rfl, rfl⟩ := Prod.mk.inj (Option.some.inj h)
                  exact .execute htodo hnew
      | recording name loop =>
          simp only [step] at h
          split at h
          · obtain ⟨rfl, rfl⟩ := Prod.mk.inj (Option.some.inj h)
            exact .rollback (by simp)
          · next hunique =>
              split at h
              · exact absurd h (by simp)
              · next hfree =>
                  obtain ⟨rfl, rfl⟩ := Prod.mk.inj (Option.some.inj h)
                  apply Moves.record
                  · intro hmem
                    exact hunique (.inl hmem)
                  · intro k hmem
                    exact hfree ⟨(k, name), hmem, rfl⟩
      | returned listed ran => exact absurd h (by simp [step])
      | failed => exact absurd h (by simp [step])

/-- What a step keeps. -/
structure Keeps (i : ℕ) (s s' : Shared) (run' : Run) : Prop where
  grows : Extends i s s'
  consistent : Consistent s'
  holds : Holds i s' run'
  uncommitted : Uncommitted i s' run'

theorem keeps_rollback (hconsistent : Consistent s)
    (huncommitted : ∀ entry ∈ s.committed, entry.1 ≠ i) : Keeps i s (s.rollback i) .failed where
  grows := extends_rollback
  consistent := hconsistent.rollback i
  holds := trivial
  uncommitted _ := huncommitted

/-- A statement that writes nothing. -/
theorem keeps_same (hconsistent : Consistent s)
    (huncommitted : ∀ entry ∈ s.committed, entry.1 ≠ i) (hholds : Holds i s run') :
    Keeps i s s run' where
  grows := extends_refl
  consistent := hconsistent
  holds := hholds
  uncommitted _ := huncommitted

/-- The commit. -/
theorem keeps_commit (hconsistent : Consistent s) {done : List String}
    (hloop : InLoop i s loop done []) (htodo : loop.todo = []) :
    Keeps i s (s.commit i loop.writes) (.returned loop.listed loop.ran) where
  grows := extends_commit loop.writes
  consistent := hconsistent.commit hloop
  holds name hname := by
    rw [versions_commit, hloop.versions, hloop.ran_eq hconsistent htodo]
    by_cases hold : name ∈ s.versions
    · exact List.mem_append_left _ hold
    · exact List.mem_append_right _ (by simp [hname, hold])
  uncommitted hrun := absurd rfl (hrun loop.listed loop.ran)

/-- The step lemma. -/
theorem step_keeps (hconsistent : Consistent s) (hholds : Holds i s run)
    (huncommitted : Uncommitted i s run) (h : step i s run action = some (s', run')) :
    Keeps i s s' run' := by
  cases moves_of_step h with
  | rollback hopen => exact keeps_rollback hconsistent (huncommitted hopen)
  | create => exact keeps_same hconsistent (huncommitted (by simp)) trivial
  | select => exact keeps_same hconsistent (huncommitted (by simp)) fun _ hname => hname
  | list applied =>
      have hloop : InLoop i s { applied, listed := s.files, todo := sorted s.files } [] [] := {
        listed := hconsistent.files
        applied := hholds
        order := rfl
        ran := rfl
        unapplied := by simp
        inserted := by simp
        versions := rfl
        effects := rfl }
      exact keeps_same hconsistent (huncommitted (by simp)) ⟨[], hloop⟩
  | skip htodo happlied =>
      obtain ⟨done, hloop⟩ := hholds
      exact keeps_same hconsistent (huncommitted (by simp)) ⟨_, hloop.skip htodo happlied⟩
  | execute htodo hnew =>
      obtain ⟨done, hloop⟩ := hholds
      exact keeps_same hconsistent (huncommitted (by simp)) ⟨_, hloop.execute htodo hnew⟩
  | @record loop name hnew hfree =>
      obtain ⟨done, hloop⟩ := hholds
      have hnone := huncommitted (by simp)
      exact {
        grows := extends_insert name
        consistent := hconsistent.insert hnew hfree i
        holds := ⟨_, hloop.record⟩
        uncommitted := fun _ => hnone }
  | commit htodo =>
      obtain ⟨done, hloop⟩ := hholds
      exact keeps_commit hconsistent hloop htodo

/-! ## Every interleaving -/

theorem Holds.addFile (h : Holds i s run) (files : List String) :
    Holds i { s with files } run := by
  cases run with
  | applying loop =>
      obtain ⟨done, hloop⟩ := h
      exact ⟨done, { hloop with }⟩
  | recording name loop =>
      obtain ⟨done, hloop⟩ := h
      exact ⟨done, { hloop with }⟩
  | listing applied => exact h
  | returned listed ran => exact h
  | _ => trivial

/-- Neither another run nor a new file takes away what a run relies on. -/
theorem invariant : program.Invariant Consistent
    (fun i s run => Holds i s run ∧ Uncommitted i s run) (fun _ _ => True) where
  symm _ := trivial
  mover := by
    intro i s run action s' run' hconsistent hrun h
    have hkeeps := step_keeps hconsistent hrun.1 hrun.2 h
    exact ⟨hkeeps.consistent, hkeeps.holds, hkeeps.uncommitted⟩
  others := by
    intro i j s run other action s' run' hconsistent hrun hother hij _ h
    have hgrows := (step_keeps hconsistent hrun.1 hrun.2 h).grows
    exact ⟨⟨hother.1.of_extends hgrows hij, hother.2.of_extends hgrows hij⟩, trivial⟩
  outside := by
    intro s name s' hconsistent h
    simp only [program, addFile, Option.ite_none_left_eq_some, Option.some.injEq] at h
    obtain ⟨hnew, rfl⟩ := h
    refine ⟨{ hconsistent with files := List.nodup_cons.mpr ⟨hnew, hconsistent.files⟩ }, ?_⟩
    exact fun i run hrun => ⟨hrun.1.addFile _, hrun.2⟩

variable {c c' : Config Shared Run}

theorem migrating_everywhere (hc : migrating.Reachable c) :
    Program.Everywhere Consistent (fun i s run => Holds i s run ∧ Uncommitted i s run)
      (fun _ _ => True) c := by
  refine invariant.everywhere ?_ trivial hc
  rintro s ⟨hcommitted, hpending, hfiles⟩
  refine ⟨?_, fun i => ⟨trivial, fun _ entry hentry => ?_⟩⟩
  · constructor <;> simp [Shared.versions, Shared.effects, hcommitted, hpending, hfiles]
  · rw [hcommitted] at hentry
    exact absurd hentry (by simp)

/-- A step of one run leaves the other runs alone. -/
theorem act_cases {k : ℕ} (hc : migrating.Reachable c)
    (hstep : migrating.step c (.act k action) = some c') :
    Extends k c.shared c'.shared ∧ (∀ i, i ≠ k → c'.own i = c.own i) ∧
      step k c.shared (c.own k) action = some (c'.shared, c'.own k) := by
  have hall := migrating_everywhere hc
  rcases Program.system_step_eq_some.mp hstep with ⟨_, _, hevent, _⟩ |
    ⟨i, a, s', run', hevent, hact, rfl⟩
  · cases hevent
  · cases hevent
    refine ⟨(step_keeps hall.shared (hall.each k).1 (hall.each k).2 hact).grows, ?_, ?_⟩
    · exact fun i hi => Function.update_of_ne hi run' c.own
    · have hself : Function.update c.own k run' k = run' := Function.update_self k run' c.own
      exact hact.trans (congrArg (fun own => some (s', own)) hself.symm)

/-- A run returns from the end of its loop. -/
theorem of_step_eq_returned {listed ran : List String}
    (h : step i s run action = some (s', .returned listed ran)) :
    ∃ loop, run = .applying loop ∧ loop.todo = [] ∧ loop.listed = listed ∧ loop.ran = ran ∧
      s' = s.commit i loop.writes := by
  cases moves_of_step h with
  | commit htodo => exact ⟨_, rfl, htodo, rfl, rfl, rfl⟩

/-- The list of a run names the files of the directory. -/
def Lists (files : List String) : Run → Prop
  | .applying loop => loop.listed = files
  | .recording _ loop => loop.listed = files
  | .returned listed _ => listed = files
  | _ => True

theorem Lists.step (h : Lists s.files run) (hstep : step i s run action = some (s', run')) :
    Lists s.files run' := by
  cases moves_of_step hstep with
  | list applied => rfl
  | skip htodo happlied => exact h
  | execute htodo hnew => exact h
  | record hnew hfree => exact h
  | commit htodo => exact h
  | _ => trivial

/-- A run with nothing to do: every file there is applied. -/
def Idle (s : Shared) : Run → Prop
  | .listing applied => ∀ name ∈ s.files, name ∈ applied
  | .applying loop => loop.ran = [] ∧ ∀ name ∈ loop.todo, name ∈ loop.applied
  | .recording _ _ => False
  | .returned _ ran => ran = []
  | _ => True

theorem Idle.step (h : Idle s run) (hall : ∀ name ∈ s.files, name ∈ s.versions)
    (hstep : step i s run action = some (s', run')) : Idle s' run' := by
  cases moves_of_step hstep with
  | select => exact hall
  | list applied => exact ⟨rfl, fun name hname => h name (mem_sorted.mp hname)⟩
  | @skip loop name todo htodo happlied =>
      obtain ⟨hran, hread⟩ := h
      refine ⟨hran, fun other hother => ?_⟩
      rw [htodo] at hread
      exact hread other (List.mem_cons_of_mem name hother)
  | @execute loop name todo htodo hnew =>
      have happlied : name ∈ loop.applied := h.2 name (htodo ▸ List.mem_cons_self)
      exact absurd happlied hnew
  | record hnew hfree => exact h.elim
  | commit htodo => exact h.1
  | _ => trivial

theorem Idle.of_files_eq (h : Idle s run) (hfiles : s'.files = s.files) : Idle s' run := by
  cases run with
  | listing applied => exact fun name hname => h name (hfiles ▸ hname)
  | _ => exact h

/-! ## Runs between which no file is added -/

/-- No event of the list adds a file. -/
def NoNewFiles (events : List (Interleaving.Event String RunAction)) : Prop :=
  ∀ e ∈ events, ∀ name, e ≠ .environment name

/-- While no file is added, a run that has not begun will have listed the files
that are there. -/
theorem lists_of_replay (hc : migrating.Reachable c) (hbegin : c.own i = .creating)
    {events : List (Interleaving.Event String RunAction)} (hevents : NoNewFiles events)
    (hreplay : migrating.replay c events = some c') :
    c'.shared.files = c.shared.files ∧ Lists c.shared.files (c'.own i) := by
  have hrun : migrating.Reachable c' ∧ c'.shared.files = c.shared.files ∧
      Lists c.shared.files (c'.own i) := by
    refine System.replay_invariant (P := fun u => migrating.Reachable u ∧
      u.shared.files = c.shared.files ∧ Lists c.shared.files (u.own i)) ?_ ?_ hreplay
    · rintro u e he v ⟨hu, hfiles, hlists⟩ hstep
      cases e with
      | environment name => exact absurd rfl (hevents _ he name)
      | act k action =>
          obtain ⟨hgrows, hothers, hact⟩ := act_cases hu hstep
          have hfiles' : v.shared.files = c.shared.files := hgrows.files.trans hfiles
          refine ⟨hu.step _ hstep, hfiles', ?_⟩
          by_cases hk : i = k
          · subst hk
            rw [← hfiles] at hlists ⊢
            exact hlists.step hact
          · rw [hothers i hk]
            exact hlists
    · refine ⟨hc, rfl, ?_⟩
      rw [hbegin]
      trivial
  exact hrun.2

/-- While no file is added and every file is applied, a run has nothing to do. -/
theorem idle_of_replay (hc : migrating.Reachable c) (hbegin : c.own i = .creating)
    (hall : ∀ name ∈ c.shared.files, name ∈ c.shared.versions)
    {events : List (Interleaving.Event String RunAction)} (hevents : NoNewFiles events)
    (hreplay : migrating.replay c events = some c') : Idle c'.shared (c'.own i) := by
  have hrun : migrating.Reachable c' ∧
      (∀ name ∈ c'.shared.files, name ∈ c'.shared.versions) ∧ Idle c'.shared (c'.own i) := by
    refine System.replay_invariant (P := fun u => migrating.Reachable u ∧
      (∀ name ∈ u.shared.files, name ∈ u.shared.versions) ∧ Idle u.shared (u.own i)) ?_ ?_ hreplay
    · rintro u e he v ⟨hu, happlied, hidle⟩ hstep
      cases e with
      | environment name => exact absurd rfl (hevents _ he name)
      | act k action =>
          obtain ⟨hgrows, hothers, hact⟩ := act_cases hu hstep
          have happlied' : ∀ name ∈ v.shared.files, name ∈ v.shared.versions := by
            intro name hname
            rw [hgrows.files] at hname
            exact hgrows.versions name (happlied name hname)
          refine ⟨hu.step _ hstep, happlied', ?_⟩
          by_cases hk : i = k
          · subst hk
            exact hidle.step happlied hact
          · rw [hothers i hk]
            exact hidle.of_files_eq hgrows.files
    · refine ⟨hc, hall, ?_⟩
      rw [hbegin]
      trivial
  exact hrun.2.2

end Migrations

namespace Example.Overlap

open Migrations

def start : Config Shared Run := ⟨{ files := ["002.sql", "001.sql"] }, fun _ => .creating⟩

/-- So many statements of one run. -/
def statements (i count : ℕ) : List (Interleaving.Event String RunAction) :=
  List.replicate count (.act i .proceed)

/-- Two runs read the same empty table; the second executes the first file too
and fails on its name.  A file that sorts first is added, a third run applies it,
and a fourth finds nothing to do. -/
def events : List (Interleaving.Event String RunAction) :=
  statements 0 3 ++ statements 1 4 ++ statements 0 5 ++ statements 1 1 ++
    [.environment "000.sql"] ++ statements 2 8 ++ statements 3 7

theorem replay_events : ((migrating.replay start events).map fun c =>
    (c.shared.effects, c.own 1, c.own 2, c.own 3)) =
      some (["001.sql", "002.sql", "000.sql"], .failed,
        .returned ["000.sql", "002.sql", "001.sql"] ["000.sql"],
        .returned ["000.sql", "002.sql", "001.sql"] []) := by
  decide +kernel

end Example.Overlap

namespace Migrations

variable {c c' : Config Shared Run}

/-- **Each migration takes effect exactly once.** -/
theorem applied_exactly_once (hc : migrating.Reachable c) :
    c.shared.versions = c.shared.effects ∧ c.shared.effects.Nodup ∧
        -- a run that has failed or is still open has committed nothing
        (∀ i, (∀ listed ran, c.own i ≠ .returned listed ran) →
          ∀ entry ∈ c.shared.committed, entry.1 ≠ i) ∧
        -- a run that returns has applied what it found to be missing, in order
        (∀ i action c' listed ran, migrating.step c (.act i action) = some c' →
          c'.own i = .returned listed ran →
            ran = (sorted listed).filter (· ∉ c.shared.versions) ∧ ran.Pairwise (· < ·) ∧
              c'.shared.versions = c.shared.versions ++ ran ∧
                ∀ name ∈ listed, name ∈ c'.shared.versions) ∧
        -- it has listed every file that is there, and after it there is nothing to do
        (∀ i, c.own i = .creating → ∀ events c' listed ran, NoNewFiles events →
          migrating.replay c events = some c' → c'.own i = .returned listed ran →
            c'.shared.files = listed ∧
              ((∃ j listed' ran', c.own j = .returned listed' ran' ∧
                ∀ name ∈ c.shared.files, name ∈ listed') → ran = [])) := by
  have hall := migrating_everywhere hc
  refine ⟨hall.shared.same.symm, ?_, fun i => (hall.each i).2, ?_, ?_⟩
  · rw [hall.shared.same]
    exact hall.shared.once
  · intro i action c' listed ran hstep hreturned
    obtain ⟨_, _, hact⟩ := act_cases hc hstep
    rw [hreturned] at hact
    obtain ⟨loop, hrun, htodo, rfl, rfl, hcommit⟩ := of_step_eq_returned hact
    have hholds := (hall.each i).1
    rw [hrun] at hholds
    obtain ⟨done, hloop⟩ := hholds
    have hran := hloop.ran_eq hall.shared htodo
    have hkept := (keeps_commit hall.shared hloop htodo).holds
    refine ⟨hran, ?_, ?_, ?_⟩
    · rw [hran]
      exact (pairwise_lt_sorted hloop.listed).filter _
    · rw [hcommit, versions_commit, hloop.versions]
    · rw [hcommit]
      exact hkept
  · intro i hbegin events c' listed ran hevents hreplay hreturned
    obtain ⟨hfiles, hlists⟩ := lists_of_replay hc hbegin hevents hreplay
    rw [hreturned] at hlists
    refine ⟨hfiles.trans hlists.symm, ?_⟩
    rintro ⟨j, listed', ran', hj, hlisted⟩
    have hholds := (hall.each j).1
    rw [hj] at hholds
    have hidle := idle_of_replay hc hbegin (fun name hname => hholds name (hlisted name hname))
      hevents hreplay
    rw [hreturned] at hidle
    exact hidle

/-- The second of two overlapping runs fails and leaves nothing behind. -/
theorem applied_exactly_once_overlap :
    ∃ c, migrating.replay Example.Overlap.start Example.Overlap.events = some c ∧
      c.own 1 = .failed ∧ c.shared.versions = ["001.sql", "002.sql", "000.sql"] ∧
        ∀ entry ∈ c.shared.committed, entry.1 ≠ 1 := by
  obtain ⟨c, hreplay, hends⟩ := Option.map_eq_some_iff.mp Example.Overlap.replay_events
  simp only [Prod.mk.injEq] at hends
  obtain ⟨heffects, hfailed, _⟩ := hends
  have hstart : migrating.Reachable Example.Overlap.start :=
    .init ⟨⟨rfl, rfl, by decide⟩, fun _ => rfl⟩
  obtain ⟨hsame, _, huncommitted, _⟩ := applied_exactly_once (hstart.replay hreplay)
  refine ⟨c, hreplay, hfailed, hsame.trans heffects, huncommitted 1 fun listed ran => ?_⟩
  rw [hfailed]
  exact Run.noConfusion

end Migrations

end AgentOAuth
