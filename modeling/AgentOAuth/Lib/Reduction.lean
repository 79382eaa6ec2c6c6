import AgentOAuth.Lib.Workload

/-!
# Reduction of interleaved scripts

Any number of processes run scripts over one store, interleaved call by call.
When every script first makes *early* calls, which only read what nobody
writes, then one call of any kind, and from there on *late* calls, which
commute with whatever the others call, an interleaved run has the outcome of a
run that executes every script at once, in the order of those calls in the
middle.  This is reduction by movers: early calls move to the right, late calls
to the left.

States are compared up to a relation `same`, which no operation can tell
apart.  `Reduced` relates an interleaved configuration to the state `a` of the
run that executes scripts at once: `a` is what the store becomes when the
scripts past their middle call are settled, in that order.  `Reduced.step` is
the step lemma; what the run at once is a run of is up to its user.
-/

namespace Reduction

open Effect Interleaving Workloads

variable {Op κ δ ε σ ρ α : Type} {Answer : Op → Type}

/-- Early calls, one call, and late calls; a script without a call may end at
once. -/
inductive TwoPhase (early late uses : Op → Prop) : Script Answer ε α → Prop
  | finish (outcome : Except ε α) : TwoPhase early late uses (.finish outcome)
  | early {x : Op} {next : Answer x → Script Answer ε α} (huses : uses x) (hearly : early x)
      (hnext : ∀ v, TwoPhase early late uses (next v)) : TwoPhase early late uses (.call x next)
  | middle {x : Op} {next : Answer x → Script Answer ε α} (huses : uses x)
      (hnext : ∀ v, (next v).Every fun y => uses y ∧ late y) :
      TwoPhase early late uses (.call x next)

namespace TwoPhase

variable {early late uses : Op → Prop} {β : Type}

/-- A script with late calls only: the first of them is the one in the middle. -/
theorem of_late {k : Script Answer ε α} (h : k.Every fun x => uses x ∧ late x) :
    TwoPhase early late uses k := by
  cases k with
  | finish outcome => exact .finish outcome
  | call x next => exact .middle h.1.1 h.2

theorem bind_early {k : Script Answer ε α} (hk : k.Every fun x => uses x ∧ early x)
    {f : α → Script Answer ε β} (hf : ∀ a, TwoPhase early late uses (f a)) :
    TwoPhase early late uses (k >>= f) := by
  induction k with
  | finish outcome =>
      cases outcome with
      | ok a => exact hf a
      | error e => exact .finish _
  | call x next ih => exact .early hk.1.1 hk.1.2 fun v => ih v (hk.2 v)

theorem bind_late {k : Script Answer ε α} (hk : TwoPhase early late uses k)
    {f : α → Script Answer ε β} (hf : ∀ a, (f a).Every fun x => uses x ∧ late x) :
    TwoPhase early late uses (k >>= f) := by
  induction hk with
  | finish outcome =>
      cases outcome with
      | ok a => exact of_late (hf a)
      | error e => exact .finish _
  | early huses hearly _ ih => exact .early huses hearly ih
  | middle huses hnext => exact .middle huses fun v => (hnext v).bind hf

end TwoPhase

/-- The step `g` and the call `x` have the same effect in either order, and `x`
the same answer. -/
structure Commutes (exec : (x : Op) → EStateM ε σ (Answer x)) (same : σ → σ → Prop) (x : Op)
    (g : σ → σ) : Prop where
  answer : ∀ s, Script.answer exec x (g s) = Script.answer exec x s
  after : ∀ s, same (Script.after exec x (g s)) (g (Script.after exec x s))

/-- What makes the scripts of a workload reducible. -/
structure Movers (load : Workload Answer κ δ ε σ α) (same : σ → σ → Prop) (view : σ → ρ)
    (early late : Op → Prop) (uses : κ → Op → Prop) (independent : κ → κ → Prop) : Prop where
  refl : ∀ s, same s s
  symm : ∀ {s t}, same s t → same t s
  trans : ∀ {s t u}, same s t → same t u → same s u
  answer_congr : ∀ x {s t}, same s t →
    Script.answer load.exec x s = Script.answer load.exec x t
  after_congr : ∀ x {s t}, same s t → same (Script.after load.exec x s) (Script.after load.exec x t)
  view_congr : ∀ {s t}, same s t → view s = view t
  environment_congr : ∀ change {s t}, same s t →
    same (load.environment change s) (load.environment change t)
  view_after : ∀ x s, view (Script.after load.exec x s) = view s
  early_after : ∀ {x}, early x → ∀ s, Script.after load.exec x s = s
  early_answer : ∀ {x}, early x → ∀ {s t}, view s = view t →
    Script.answer load.exec x s = Script.answer load.exec x t
  shape : ∀ job, TwoPhase early late (uses job) (load.script job)
  independent_symm : ∀ {a b}, independent a b → independent b a
  late_commutes : ∀ {a b x y}, independent a b → uses a x → late x → uses b y →
    Commutes load.exec same x (Script.after load.exec y)
  late_answer : ∀ {a b x y}, independent a b → uses a x → late x → uses b y →
    ∀ s, Script.answer load.exec y (Script.after load.exec x s) = Script.answer load.exec y s

section Movers

variable {load : Workload Answer κ δ ε σ α} {same : σ → σ → Prop} {view : σ → ρ}
  {early late : Op → Prop} {uses : κ → Op → Prop} {independent : κ → κ → Prop}

/-- The calls a script of the job makes once it is past its middle call. -/
abbrev Settling (late : Op → Prop) (uses : κ → Op → Prop) (job : κ) (k : Script Answer ε α) : Prop :=
  k.Every fun x => uses job x ∧ late x

namespace Movers

variable (movers : Movers load same view early late uses independent)

include movers

theorem result_congr (k : Script Answer ε α) {s t : σ} (h : same s t) :
    k.result load.exec s = k.result load.exec t := by
  induction k generalizing s t with
  | finish outcome => rw [Script.result_finish, Script.result_finish]
  | call x next ih =>
      rw [Script.result_call, Script.result_call, movers.answer_congr x h]
      cases Script.answer load.exec x t with
      | ok v => exact ih v (movers.after_congr x h)
      | error e => rw [Script.resume_error, Script.result_finish, Script.result_finish]

theorem final_congr (k : Script Answer ε α) {s t : σ} (h : same s t) :
    same (k.final load.exec s) (k.final load.exec t) := by
  induction k generalizing s t with
  | finish outcome => simpa only [Script.final_finish] using h
  | call x next ih =>
      rw [Script.final_call, Script.final_call, movers.answer_congr x h]
      cases Script.answer load.exec x t with
      | ok v => exact ih v (movers.after_congr x h)
      | error e => simpa only [Script.resume_error, Script.final_finish] using movers.after_congr x h

theorem view_final (k : Script Answer ε α) (s : σ) : view (k.final load.exec s) = view s := by
  induction k generalizing s with
  | finish outcome => rw [Script.final_finish]
  | call x next ih =>
      rw [Script.final_call]
      cases Script.answer load.exec x s with
      | ok v => exact (ih v _).trans (movers.view_after x s)
      | error e => rw [Script.resume_error, Script.final_finish, movers.view_after x s]

omit movers in
theorem settling_resume {job : κ} {x : Op} {next : Answer x → Script Answer ε α}
    (h : Settling late uses job (.call x next)) (answer : Except ε (Answer x)) :
    Settling late uses job (Script.resume next answer) :=
  Script.Every.resume h.2 answer

/-! ### A script past its middle call moves to the left -/

/-- A step that commutes with every call of a script commutes with the script. -/
theorem commutes_script {g : σ → σ} {k : Script Answer ε α}
    (hk : k.Every fun x => Commutes load.exec same x g) (s : σ) :
    k.result load.exec (g s) = k.result load.exec s ∧
      same (k.final load.exec (g s)) (g (k.final load.exec s)) := by
  induction k generalizing s with
  | finish outcome =>
      simp only [Script.result_finish, Script.final_finish, true_and]
      exact movers.refl (g s)
  | call x next ih =>
      have hmoved : same (Script.after load.exec x (g s)) (g (Script.after load.exec x s)) :=
        hk.1.after s
      rw [Script.result_call, Script.result_call, Script.final_call, Script.final_call,
        hk.1.answer s]
      cases Script.answer load.exec x s with
      | ok v =>
          obtain ⟨hresult, hfinal⟩ := ih v (hk.2 v) (Script.after load.exec x s)
          exact ⟨(movers.result_congr (next v) hmoved).trans hresult,
            movers.trans (movers.final_congr (next v) hmoved) hfinal⟩
      | error e =>
          simp only [Script.resume_error, Script.result_finish, Script.final_finish, true_and]
          exact hmoved

theorem commutes_after {a b : κ} (hindependent : independent a b) {k : Script Answer ε α}
    (hk : Settling late uses a k) {y : Op} (hy : uses b y) (s : σ) :
    k.result load.exec (Script.after load.exec y s) = k.result load.exec s ∧
      same (k.final load.exec (Script.after load.exec y s))
        (Script.after load.exec y (k.final load.exec s)) :=
  movers.commutes_script
    (hk.mono fun _ hx => movers.late_commutes hindependent hx.1 hx.2 hy) s

/-- A settled script does not change what another process is answered. -/
theorem answer_final {a b : κ} (hindependent : independent a b) {k : Script Answer ε α}
    (hk : Settling late uses a k) {y : Op} (hy : uses b y) (s : σ) :
    Script.answer load.exec y (k.final load.exec s) = Script.answer load.exec y s := by
  induction k generalizing s with
  | finish outcome => rw [Script.final_finish]
  | call x next ih =>
      have hone := movers.late_answer hindependent hk.1.1 hk.1.2 hy s
      rw [Script.final_call]
      cases Script.answer load.exec x s with
      | ok v => exact (ih v (hk.2 v) _).trans hone
      | error e => rw [Script.resume_error, Script.final_finish, hone]

/-- A settled script does not change what another settling one returns. -/
theorem result_final {a b : κ} (hindependent : independent a b) {k l : Script Answer ε α}
    (hk : Settling late uses a k) (hl : Settling late uses b l) (s : σ) :
    l.result load.exec (k.final load.exec s) = l.result load.exec s := by
  induction k generalizing s with
  | finish outcome => rw [Script.final_finish]
  | call x next ih =>
      have hone := (movers.commutes_after (movers.independent_symm hindependent) hl hk.1.1 s).1
      rw [Script.final_call]
      cases Script.answer load.exec x s with
      | ok v => exact (ih v (hk.2 v) _).trans hone
      | error e => rw [Script.resume_error, Script.final_finish, hone]

end Movers

/-! ## Settling what is left -/

/-- What is left of the processes of a list, run at once, one after another. -/
def settle (exec : (x : Op) → EStateM ε σ (Answer x)) (own : ℕ → Process Answer κ ε α) :
    List ℕ → σ → σ
  | [], s => s
  | i :: order, s => settle exec own order ((own i).settle exec s)

/-- The process runs a job independent of `b` and is past its middle call. -/
def SettlesBeside (late : Op → Prop) (uses : κ → Op → Prop) (independent : κ → κ → Prop) (b : κ)
    (p : Process Answer κ ε α) : Prop :=
  ∃ a k, p = .running a k ∧ Settling late uses a k ∧ independent a b

variable {own : ℕ → Process Answer κ ε α} {order : List ℕ}

theorem settle_append (exec : (x : Op) → EStateM ε σ (Answer x)) (first second : List ℕ) (s : σ) :
    settle exec own (first ++ second) s = settle exec own second (settle exec own first s) := by
  induction first generalizing s with
  | nil => rfl
  | cons i first ih => exact ih _

/-- Only the processes of the list matter. -/
theorem settle_update (exec : (x : Op) → EStateM ε σ (Answer x)) {i : ℕ} (hi : i ∉ order)
    (p : Process Answer κ ε α) (s : σ) :
    settle exec (Function.update own i p) order s = settle exec own order s := by
  induction order generalizing s with
  | nil => rfl
  | cons j order ih =>
      obtain ⟨hj, hrest⟩ := not_or.mp (mt List.mem_cons.mpr hi)
      rw [settle, settle, Function.update_of_ne (Ne.symm hj), ih hrest]

/-- Processes that are done have nothing to settle. -/
theorem settle_of_finished (exec : (x : Op) → EStateM ε σ (Answer x))
    (h : ∀ i ∈ order, ∃ job outcome, own i = .running job (.finish outcome)) (s : σ) :
    settle exec own order s = s := by
  induction order generalizing s with
  | nil => rfl
  | cons i order ih =>
      obtain ⟨job, outcome, hown⟩ := h i List.mem_cons_self
      rw [settle, hown, Process.settle, Script.final_finish]
      exact ih (fun j hj => h j (List.mem_cons_of_mem _ hj)) s

namespace Movers

variable (movers : Movers load same view early late uses independent)

include movers

theorem settle_congr {s t : σ} (h : same s t) :
    same (settle load.exec own order s) (settle load.exec own order t) := by
  induction order generalizing s t with
  | nil => exact h
  | cons i order ih =>
      apply ih
      cases own i with
      | idle => exact h
      | running job rest => exact movers.final_congr rest h

theorem view_settle (s : σ) : view (settle load.exec own order s) = view s := by
  induction order generalizing s with
  | nil => rfl
  | cons i order ih =>
      rw [settle, ih]
      cases own i with
      | idle => rfl
      | running job rest => exact movers.view_final rest s

/-- A step that commutes with what is left of every process commutes with
settling them. -/
theorem settle_commutes {g : σ → σ}
    (hg : ∀ i ∈ order, ∃ job k, own i = .running job k ∧
      k.Every fun x => Commutes load.exec same x g) (s : σ) :
    same (settle load.exec own order (g s)) (g (settle load.exec own order s)) := by
  induction order generalizing s with
  | nil => exact movers.refl (g s)
  | cons i order ih =>
      obtain ⟨job, k, hown, hk⟩ := hg i List.mem_cons_self
      rw [settle, settle, hown]
      exact movers.trans (movers.settle_congr (movers.commutes_script hk s).2)
        (ih (fun j hj => hg j (List.mem_cons_of_mem _ hj)) _)

variable {b : κ}

theorem commutes_of_settlesBeside {p : Process Answer κ ε α} {y : Op} (hy : uses b y)
    (h : SettlesBeside late uses independent b p) :
    ∃ job k, p = .running job k ∧
      k.Every fun x => Commutes load.exec same x (Script.after load.exec y) := by
  obtain ⟨a, k, hp, hk, hindependent⟩ := h
  exact ⟨a, k, hp, hk.mono fun _ hx => movers.late_commutes hindependent hx.1 hx.2 hy⟩

theorem answer_settle (h : ∀ i ∈ order, SettlesBeside late uses independent b (own i)) {y : Op}
    (hy : uses b y) (s : σ) :
    Script.answer load.exec y (settle load.exec own order s) = Script.answer load.exec y s := by
  induction order generalizing s with
  | nil => rfl
  | cons i order ih =>
      obtain ⟨a, k, hown, hk, hindependent⟩ := h i List.mem_cons_self
      rw [settle, ih (fun j hj => h j (List.mem_cons_of_mem _ hj)), hown]
      exact movers.answer_final hindependent hk hy s

theorem result_settle (h : ∀ i ∈ order, SettlesBeside late uses independent b (own i))
    {l : Script Answer ε α} (hl : Settling late uses b l) (s : σ) :
    l.result load.exec (settle load.exec own order s) = l.result load.exec s := by
  induction order generalizing s with
  | nil => rfl
  | cons i order ih =>
      obtain ⟨a, k, hown, hk, hindependent⟩ := h i List.mem_cons_self
      rw [settle, ih (fun j hj => h j (List.mem_cons_of_mem _ hj)), hown]
      exact movers.result_final hindependent hk hl s

/-- A late call of one process can be made before all the others are settled. -/
theorem settle_advance {i : ℕ} {x : Op} {next : Answer x → Script Answer ε α}
    (hnodup : order.Nodup) (hi : i ∈ order) (hown : own i = .running b (.call x next))
    (hx : uses b x) (hothers : ∀ j ∈ order, j ≠ i → SettlesBeside late uses independent b (own j))
    (s : σ) :
    same (settle load.exec own order s)
      (settle load.exec (Function.update own i
        (.running b (Script.resume next (Script.answer load.exec x s)))) order
          (Script.after load.exec x s)) := by
  induction order generalizing s with
  | nil => cases hi
  | cons j order ih =>
      obtain ⟨hj, hrest⟩ := List.nodup_cons.mp hnodup
      by_cases hji : j = i
      · -- its own turn: both sides make the call now
        subst hji
        rw [settle, settle, hown, Function.update_self, settle_update _ hj, Process.settle,
          Process.settle, Script.final_call]
        exact movers.refl _
      · have hbeside := hothers j List.mem_cons_self hji
        obtain ⟨a, k, hownj, hk, hindependent⟩ := hbeside
        have hlater := ih hrest ((List.mem_cons.mp hi).resolve_left (Ne.symm hji))
          (fun l hl => hothers l (List.mem_cons_of_mem _ hl)) ((own j).settle load.exec s)
        have hanswer : Script.answer load.exec x ((own j).settle load.exec s) =
            Script.answer load.exec x s := by
          rw [hownj]
          exact movers.answer_final hindependent hk hx s
        have hmoved : same (Script.after load.exec x ((own j).settle load.exec s))
            ((own j).settle load.exec (Script.after load.exec x s)) := by
          rw [hownj]
          exact movers.symm (movers.commutes_after hindependent hk hx s).2
        rw [hanswer] at hlater
        rw [settle, settle, Function.update_of_ne hji]
        exact movers.trans hlater (movers.settle_congr hmoved)

end Movers

/-! ## Interleaved runs and runs at once -/

/-- The process is before its middle call, and running what is left of it is
running its whole job, on any store with the view `v`. -/
def Waiting (load : Workload Answer κ δ ε σ α) (view : σ → ρ) (early late : Op → Prop)
    (uses : κ → Op → Prop) (v : ρ) : Process Answer κ ε α → Prop
  | .idle => True
  | .running job rest =>
      (∃ x next, rest = .call x next) ∧ TwoPhase early late (uses job) rest ∧
        ∀ s, view s = v → rest.result load.exec s = (load.script job).result load.exec s ∧
          rest.final load.exec s = (load.script job).final load.exec s

/-- The processes of `order` are past their middle call, and the store becomes
`a` when they are settled in that order; `promised` is what each will return. -/
structure Reduced (load : Workload Answer κ δ ε σ α) (same : σ → σ → Prop) (view : σ → ρ)
    (early late : Op → Prop) (uses : κ → Op → Prop) (independent : κ → κ → Prop)
    (c : Config σ (Process Answer κ ε α)) (a : σ) (order : List ℕ) (promised : ℕ → Except ε α) :
    Prop where
  nodup : order.Nodup
  same : same a (settle load.exec c.own order c.shared)
  settling : ∀ i ∈ order, ∃ job k, c.own i = .running job k ∧ Settling late uses job k ∧
    k.result load.exec c.shared = promised i
  waiting : ∀ i, i ∉ order → Waiting load view early late uses (view c.shared) (c.own i)
  apart : ∀ i j, i ≠ j → ∀ a b k l, c.own i = .running a k → c.own j = .running b l →
    independent a b

/-- The change leaves the view alone and commutes with every late call. -/
structure Quiet (load : Workload Answer κ δ ε σ α) (same : σ → σ → Prop) (view : σ → ρ)
    (late : Op → Prop) (change : δ) : Prop where
  view : ∀ s, view (load.environment change s) = view s
  commutes : ∀ x, late x → Commutes load.exec same x (load.environment change)

/-- A new job is independent of the jobs there are, and a change that is not
quiet comes when every process is at rest. -/
def Allowed (load : Workload Answer κ δ ε σ α) (same : σ → σ → Prop) (view : σ → ρ)
    (late : Op → Prop) (independent : κ → κ → Prop) (c : Config σ (Process Answer κ ε α)) :
    Event δ (Act κ) → Prop
  | .environment change => Quiet load same view late change ∨ ∀ i, AtRest (c.own i)
  | .act _ (.submit job) => ∀ j b k, c.own j = .running b k → independent b job
  | .act _ .advance => True

/-- A process that goes on with its job stays as independent as it was. -/
theorem apart_update {own : ℕ → Process Answer κ ε α} {i : ℕ} {job : κ} {rest rest' : Script Answer ε α}
    (hown : own i = .running job rest)
    (h : ∀ i j, i ≠ j → ∀ a b k l, own i = .running a k → own j = .running b l → independent a b) :
    ∀ j l, j ≠ l → ∀ a b m n, Function.update own i (.running job rest') j = .running a m →
      Function.update own i (.running job rest') l = .running b n → independent a b := by
  have hjob : ∀ j b m, Function.update own i (.running job rest') j = .running b m →
      ∃ m', own j = .running b m' := by
    intro j b m hj
    by_cases hji : j = i
    · subst hji
      rw [Function.update_self] at hj
      cases hj
      exact ⟨_, hown⟩
    · rw [Function.update_of_ne hji] at hj
      exact ⟨m, hj⟩
  intro j l hjl a b m n hj hl
  obtain ⟨m', hj⟩ := hjob j a m hj
  obtain ⟨n', hl⟩ := hjob l b n hl
  exact h j l hjl a b m' n' hj hl

/-- A job independent of the others joins them. -/
theorem apart_insert {own : ℕ → Process Answer κ ε α} {i : ℕ} {job : κ} {rest : Script Answer ε α}
    (hjob : ∀ j, j ≠ i → ∀ b k, own j = .running b k → independent b job)
    (hsymm : ∀ {a b}, independent a b → independent b a)
    (h : ∀ i j, i ≠ j → ∀ a b k l, own i = .running a k → own j = .running b l → independent a b) :
    ∀ j l, j ≠ l → ∀ a b m n, Function.update own i (.running job rest) j = .running a m →
      Function.update own i (.running job rest) l = .running b n → independent a b := by
  intro j l hjl a b m n hj hl
  by_cases hji : j = i
  · subst hji
    rw [Function.update_self] at hj
    rw [Function.update_of_ne (Ne.symm hjl)] at hl
    cases hj
    exact hsymm (hjob l (Ne.symm hjl) b n hl)
  · rw [Function.update_of_ne hji] at hj
    by_cases hli : l = i
    · subst hli
      rw [Function.update_self] at hl
      cases hl
      exact hjob j hji a m hj
    · rw [Function.update_of_ne hli] at hl
      exact h j l hjl a b m n hj hl

namespace Reduced

variable {c c' : Config σ (Process Answer κ ε α)} {a : σ} {promised : ℕ → Except ε α}

/-- Before anything has started, nothing is to be settled. -/
theorem start (movers : Movers load same view early late uses independent)
    (hidle : ∀ i, c.own i = .idle) (promised : ℕ → Except ε α) :
    Reduced load same view early late uses independent c c.shared [] promised where
  nodup := List.nodup_nil
  same := movers.refl _
  settling i hi := by cases hi
  waiting i _ := by
    rw [hidle i]
    trivial
  apart i j _ a b k l hi := by
    rw [hidle i] at hi
    cases hi

variable (h : Reduced load same view early late uses independent c a order promised)

include h

theorem beside {i : ℕ} {b : κ} {k : Script Answer ε α} (hi : c.own i = .running b k) :
    ∀ j ∈ order, j ≠ i → SettlesBeside late uses independent b (c.own j) := by
  intro j hj hji
  obtain ⟨a, l, hown, hl, _⟩ := h.settling j hj
  exact ⟨a, l, hown, hl, h.apart j i hji a b l k hown hi⟩

theorem view_eq (movers : Movers load same view early late uses independent) :
    view a = view c.shared :=
  (movers.view_congr h.same).trans (movers.view_settle c.shared)

/-- How every late call may change the store, settling does. -/
theorem settle_rel {R : σ → σ → Prop} (hrefl : ∀ s, R s s)
    (htrans : ∀ {s t u}, R s t → R t u → R s u)
    (hstep : ∀ x, late x → ∀ s, R s (Script.after load.exec x s)) :
    R c.shared (settle load.exec c.own order c.shared) := by
  have hone : ∀ i ∈ order, ∀ s, R s ((c.own i).settle load.exec s) := by
    intro i hi s
    obtain ⟨job, k, hown, hk, _⟩ := h.settling i hi
    rw [hown]
    exact hk.final_rel hrefl htrans (fun x hx => hstep x hx.2) s
  clear h
  generalize c.shared = s
  induction order generalizing s with
  | nil => exact hrefl s
  | cons i order ih =>
      exact htrans (hone i List.mem_cons_self s)
        (ih (fun j hj => hone j (List.mem_cons_of_mem _ hj)) _)

/-- When every process is at rest, the two runs have come to the same store. -/
theorem same_of_atRest (hrest : ∀ i, AtRest (c.own i)) : same a c.shared := by
  have hsame := h.same
  rwa [settle_of_finished] at hsame
  intro i hi
  obtain ⟨job, k, hown, _⟩ := h.settling i hi
  rcases hrest i with hidle | hdone
  · rw [hidle] at hown
    cases hown
  · exact hdone

/-- A process that is done is past its middle call, and returned what was
promised. -/
theorem mem_of_finish {i : ℕ} {job : κ} {outcome : Except ε α}
    (hown : c.own i = .running job (.finish outcome)) : i ∈ order ∧ outcome = promised i := by
  have hi : i ∈ order := by
    by_contra hi
    have hwaiting := h.waiting i hi
    rw [hown] at hwaiting
    obtain ⟨⟨x, next, hcall⟩, _⟩ := hwaiting
    cases hcall
  obtain ⟨job', k, hown', _, hresult⟩ := h.settling i hi
  rw [hown] at hown'
  cases hown'
  rw [Script.result_finish] at hresult
  exact ⟨hi, hresult⟩

/-- One more process is settled last. -/
theorem commit {i : ℕ} {job : κ} {rest : Script Answer ε α} {s' a' : σ} (hi : i ∉ order)
    (hrest : Settling late uses job rest)
    (hsame : same a' (rest.final load.exec (settle load.exec c.own order s')))
    (hview : view s' = view c.shared)
    (hpromised : ∀ j ∈ order, ∀ b k, c.own j = .running b k → Settling late uses b k →
      k.result load.exec s' = k.result load.exec c.shared)
    (hapart : ∀ j, j ≠ i → ∀ b k, c.own j = .running b k → independent b job)
    (hsymm : ∀ {a b}, independent a b → independent b a) :
    Reduced load same view early late uses independent
      ⟨s', Function.update c.own i (.running job rest)⟩ a' (order ++ [i])
        (Function.update promised i (rest.result load.exec s')) where
  nodup := by
    rw [List.nodup_append]
    refine ⟨h.nodup, List.pairwise_singleton _ i, fun j hj k hk => ?_⟩
    rintro rfl
    exact hi (List.mem_singleton.mp hk ▸ hj)
  same := by
    dsimp only
    -- what is left of `i` is settled last, so its answer is the last in the order
    rw [settle_append, settle_update _ hi, settle, settle, Function.update_self]
    exact hsame
  settling := by
    intro j hj
    dsimp only
    rcases List.mem_append.mp hj with hj | hj
    · have hji : j ≠ i := fun hji => hi (hji ▸ hj)
      obtain ⟨b, k, hown, hk, hresult⟩ := h.settling j hj
      refine ⟨b, k, ?_, hk, ?_⟩
      · rw [Function.update_of_ne hji, hown]
      · rw [Function.update_of_ne hji, ← hresult, hpromised j hj b k hown hk]
    · obtain rfl := List.mem_singleton.mp hj
      exact ⟨job, rest, Function.update_self _ _ _, hrest, by rw [Function.update_self]⟩
  waiting := by
    intro j hj
    obtain ⟨hj, hji⟩ := not_or.mp (mt List.mem_append.mpr hj)
    have hji : j ≠ i := fun heq => hji (List.mem_singleton.mpr heq)
    change Waiting load view early late uses (view s') (Function.update c.own i _ j)
    rw [Function.update_of_ne hji, hview]
    exact h.waiting j hj
  apart := apart_insert hapart hsymm h.apart

/-- A process past its middle call makes its next call. -/
theorem advance_settling (movers : Movers load same view early late uses independent) {i : ℕ}
    {job : κ} {x : Op} {next : Answer x → Script Answer ε α} (hi : i ∈ order)
    (hown : c.own i = .running job (.call x next)) :
    Reduced load same view early late uses independent
      ⟨Script.after load.exec x c.shared, Function.update c.own i
        (.running job (Script.resume next (Script.answer load.exec x c.shared)))⟩ a order
          promised := by
  obtain ⟨job', k, hown', hk, hresult⟩ := h.settling i hi
  rw [hown] at hown'
  cases hown'
  have hbeside := h.beside hown
  refine ⟨h.nodup, ?_, fun j hj => ?_, fun j hj => ?_, ?_⟩
  · exact movers.trans h.same (movers.settle_advance h.nodup hi hown hk.1.1 hbeside c.shared)
  · dsimp only
    by_cases hji : j = i
    · subst hji
      refine ⟨job, _, Function.update_self _ _ _, Movers.settling_resume hk _, ?_⟩
      rw [← hresult, Script.result_call]
    · obtain ⟨b, l, hownj, hl, hresultj⟩ := h.settling j hj
      obtain ⟨b', l', hownj', _, hindependent⟩ := hbeside j hj hji
      rw [hownj] at hownj'
      cases hownj'
      refine ⟨b, l, by rw [Function.update_of_ne hji, hownj], hl, ?_⟩
      rw [← hresultj]
      exact (movers.commutes_after hindependent hl hk.1.1 c.shared).1
  · have hji : j ≠ i := fun hji => hj (hji ▸ hi)
    dsimp only
    rw [Function.update_of_ne hji, movers.view_after]
    exact h.waiting j hj
  · exact apart_update hown h.apart

/-- A process makes its middle call: at this moment the run at once executes its
whole job. -/
theorem advance_middle (movers : Movers load same view early late uses independent) {i : ℕ}
    {job : κ} {x : Op} {next : Answer x → Script Answer ε α} (hi : i ∉ order)
    (hown : c.own i = .running job (.call x next)) (hx : uses job x)
    (hrest : Settling late uses job (Script.resume next (Script.answer load.exec x c.shared))) :
    Reduced load same view early late uses independent
      ⟨Script.after load.exec x c.shared, Function.update c.own i
        (.running job (Script.resume next (Script.answer load.exec x c.shared)))⟩
          ((load.script job).final load.exec a) (order ++ [i])
            (Function.update promised i ((load.script job).result load.exec a)) := by
  have hne : ∀ j ∈ order, j ≠ i := fun j hj hji => hi (hji ▸ hj)
  have hbeside : ∀ j ∈ order, SettlesBeside late uses independent job (c.own j) :=
    fun j hj => h.beside hown j hj (hne j hj)
  -- settling the others changes neither the answer nor the rest of the run
  have hanswer : Script.answer load.exec x a = Script.answer load.exec x c.shared :=
    (movers.answer_congr x h.same).trans (movers.answer_settle hbeside hx c.shared)
  have hafter : same (Script.after load.exec x a)
      (settle load.exec c.own order (Script.after load.exec x c.shared)) :=
    movers.trans (movers.after_congr x h.same) (movers.symm (movers.settle_commutes
      (fun j hj => movers.commutes_of_settlesBeside hx (hbeside j hj)) c.shared))
  have hwhole := h.waiting i hi
  rw [hown] at hwhole
  obtain ⟨hresult, hfinal⟩ := hwhole.2.2 a (h.view_eq movers)
  rw [Script.result_call, hanswer] at hresult
  rw [Script.final_call, hanswer] at hfinal
  have hreturned : (load.script job).result load.exec a =
      (Script.resume next (Script.answer load.exec x c.shared)).result load.exec
        (Script.after load.exec x c.shared) := by
    rw [← hresult, movers.result_congr _ hafter, movers.result_settle hbeside hrest]
  rw [hreturned]
  refine h.commit hi hrest ?_ (movers.view_after x c.shared) ?_ ?_ movers.independent_symm
  · rw [← hfinal]
    exact movers.final_congr _ hafter
  · intro j hj b k hownj hk
    obtain ⟨b', k', hownj', _, hindependent⟩ := hbeside j hj
    rw [hownj] at hownj'
    cases hownj'
    exact (movers.commutes_after hindependent hk hx c.shared).1
  · exact fun j hji b k hownj => h.apart j i hji b job k _ hownj hown

/-- A process before its middle call makes its next call. -/
theorem advance_waiting (movers : Movers load same view early late uses independent) {i : ℕ}
    {job : κ} {x : Op} {next : Answer x → Script Answer ε α} (hi : i ∉ order)
    (hown : c.own i = .running job (.call x next)) :
    Reduced load same view early late uses independent
      ⟨Script.after load.exec x c.shared, Function.update c.own i
        (.running job (Script.resume next (Script.answer load.exec x c.shared)))⟩ a order promised ∨
    Reduced load same view early late uses independent
      ⟨Script.after load.exec x c.shared, Function.update c.own i
        (.running job (Script.resume next (Script.answer load.exec x c.shared)))⟩
          ((load.script job).final load.exec a) (order ++ [i])
            (Function.update promised i ((load.script job).result load.exec a)) := by
  have hwhole := h.waiting i hi
  rw [hown] at hwhole
  obtain ⟨_, hshape, hjob⟩ := hwhole
  cases hshape with
  | middle huses hnext =>
      exact .inr (h.advance_middle movers hi hown huses (Script.Every.resume hnext _))
  | early huses hearly hnext =>
      cases hrest : Script.resume next (Script.answer load.exec x c.shared) with
      | finish outcome =>
          rw [← hrest]
          refine .inr (h.advance_middle movers hi hown huses ?_)
          rw [hrest]
          trivial
      | call y further =>
          have hshape' : TwoPhase early late (uses job) (.call y further) := by
            rw [← hrest]
            cases Script.answer load.exec x c.shared with
            | ok v => exact hnext v
            | error e => exact .finish _
          left
          rw [movers.early_after hearly]
          refine ⟨h.nodup, ?_, fun j hj => ?_, fun j hj => ?_, ?_⟩
          · rw [settle_update _ hi]
            exact h.same
          · have hji : j ≠ i := fun hji => hi (hji ▸ hj)
            dsimp only
            rw [Function.update_of_ne hji]
            exact h.settling j hj
          · dsimp only
            by_cases hji : j = i
            · subst hji
              rw [Function.update_self]
              refine ⟨⟨y, further, rfl⟩, hshape', fun t ht => ?_⟩
              -- an early call is answered alike on every store with this view
              have hcall := hjob t ht
              rw [Script.result_call, Script.final_call, movers.early_answer hearly ht,
                movers.early_after hearly, hrest] at hcall
              exact hcall
            · rw [Function.update_of_ne hji]
              exact h.waiting j hj
          · exact apart_update hown h.apart

/-- An idle process starts a job; a job without a call is executed at once. -/
theorem submit (movers : Movers load same view early late uses independent) {i : ℕ} {job : κ}
    (hown : c.own i = .idle) (hjob : ∀ j b k, c.own j = .running b k → independent b job) :
    i ∉ order ∧
      (Reduced load same view early late uses independent
        ⟨c.shared, Function.update c.own i (.running job (load.script job))⟩ a order promised ∨
      Reduced load same view early late uses independent
        ⟨c.shared, Function.update c.own i (.running job (load.script job))⟩
          ((load.script job).final load.exec a) (order ++ [i])
            (Function.update promised i ((load.script job).result load.exec a))) := by
  have hi : i ∉ order := by
    intro hi
    obtain ⟨b, k, hrunning, _⟩ := h.settling i hi
    rw [hown] at hrunning
    cases hrunning
  refine ⟨hi, ?_⟩
  cases hscript : load.script job with
  | finish outcome =>
      right
      -- nothing to call: the process commits as it comes in
      have hsettling : Settling late uses job (.finish outcome : Script Answer ε α) := trivial
      have hsame : same a ((Script.finish outcome : Script Answer ε α).final load.exec
          (settle load.exec c.own order c.shared)) := by
        simpa only [Script.final_finish] using h.same
      have hcommit := h.commit hi hsettling hsame rfl (fun _ _ _ _ _ _ => rfl)
        (fun j _ b k hownj => hjob j b k hownj) movers.independent_symm
      simpa only [Script.final_finish, Script.result_finish] using hcommit
  | call x next =>
      left
      -- it waits for its first call
      refine ⟨h.nodup, ?_, fun j hj => ?_, fun j hj => ?_, ?_⟩
      · rw [settle_update _ hi]
        exact h.same
      · have hji : j ≠ i := fun hji => hi (hji ▸ hj)
        dsimp only
        rw [Function.update_of_ne hji]
        exact h.settling j hj
      · dsimp only
        by_cases hji : j = i
        · subst hji
          rw [Function.update_self]
          refine ⟨⟨x, next, rfl⟩, hscript ▸ movers.shape job, fun t _ => ?_⟩
          rw [hscript]
          exact ⟨rfl, rfl⟩
        · rw [Function.update_of_ne hji]
          exact h.waiting j hj
      · exact apart_insert (fun j _ b k hownj => hjob j b k hownj) movers.independent_symm h.apart

/-- The environment changes both stores alike. -/
theorem environment (movers : Movers load same view early late uses independent) {change : δ}
    (hchange : Quiet load same view late change ∨ ∀ i, AtRest (c.own i)) :
    Reduced load same view early late uses independent
      ⟨load.environment change c.shared, c.own⟩ (load.environment change a) order promised := by
  rcases hchange with hquiet | hrest
  · -- the change is moved before all that is still to be settled
    have hcommutes : ∀ i ∈ order, ∀ job k, c.own i = .running job k → Settling late uses job k →
        k.Every fun x => Commutes load.exec same x (load.environment change) :=
      fun i _ job k _ hk => hk.mono fun x hx => hquiet.commutes x hx.2
    refine ⟨h.nodup, ?_, fun i hi => ?_, fun i hi => ?_, h.apart⟩
    · refine movers.trans (movers.environment_congr change h.same) (movers.symm
        (movers.settle_commutes (fun i hi => ?_) c.shared))
      obtain ⟨job, k, hown, hk, _⟩ := h.settling i hi
      exact ⟨job, k, hown, hcommutes i hi job k hown hk⟩
    · obtain ⟨job, k, hown, hk, hresult⟩ := h.settling i hi
      refine ⟨job, k, hown, hk, ?_⟩
      rw [← hresult]
      exact (movers.commutes_script (hcommutes i hi job k hown hk) c.shared).1
    · dsimp only
      rw [hquiet.view]
      exact h.waiting i hi
  · refine ⟨h.nodup, ?_, fun i hi => ?_, fun i hi => ?_, h.apart⟩
    · -- nothing is left to settle, so there is nothing to move past
      rw [settle_of_finished]
      · exact movers.environment_congr change (h.same_of_atRest hrest)
      · intro i hi
        obtain ⟨job, k, hown, _⟩ := h.settling i hi
        rcases hrest i with hidle | hdone
        · rw [hidle] at hown
          cases hown
        · exact hdone
    · obtain ⟨job, k, hown, hk, hresult⟩ := h.settling i hi
      refine ⟨job, k, hown, hk, ?_⟩
      rcases hrest i with hidle | ⟨job', outcome, hdone⟩
      · rw [hidle] at hown
        cases hown
      · rw [hdone] at hown
        cases hown
        rw [← hresult, Script.result_finish, Script.result_finish]
    · rcases hrest i with hidle | ⟨job', outcome, hdone⟩
      · dsimp only
        rw [hidle]
        trivial
      · exact absurd (h.mem_of_finish hdone).1 hi

/-- **The step lemma**: a step of the interleaved run is no step of the run at
once, the execution of one whole job that had not been executed, or the same
change of the store. -/
theorem step (movers : Movers load same view early late uses independent) {init : σ → Prop}
    {e : Event δ (Act κ)} (hallowed : Allowed load same view late independent c e)
    (hstep : (load.program.system init .idle).step c e = some c') :
    (∃ i act, e = .act i act ∧
      Reduced load same view early late uses independent c' a order promised) ∨
    (∃ i act job rest, e = .act i act ∧ i ∉ order ∧ c'.own i = .running job rest ∧
      Reduced load same view early late uses independent c'
        ((load.script job).final load.exec a) (order ++ [i])
          (Function.update promised i ((load.script job).result load.exec a))) ∨
    ∃ change, e = .environment change ∧
      Reduced load same view early late uses independent c' (load.environment change a) order
        promised := by
  rcases Program.system_step_eq_some.mp hstep with ⟨change, shared, rfl, henv, rfl⟩ |
    ⟨i, act, shared, own, rfl, hact, rfl⟩
  · obtain rfl := Option.some.inj henv
    exact .inr (.inr ⟨change, rfl, h.environment movers hallowed⟩)
  · rcases Workload.step_eq_some.mp hact with ⟨job, hidle, rfl, rfl, rfl⟩ |
      ⟨job, x, next, hcall, rfl, rfl, rfl⟩
    · obtain ⟨hi, hreduced | hreduced⟩ := h.submit movers hidle hallowed
      · exact .inl ⟨i, _, rfl, hreduced⟩
      · exact .inr (.inl ⟨i, _, job, _, rfl, hi, Function.update_self _ _ _, hreduced⟩)
    · by_cases hi : i ∈ order
      · exact .inl ⟨i, _, rfl, h.advance_settling movers hi hcall⟩
      · rcases h.advance_waiting movers hi hcall with hreduced | hreduced
        · exact .inl ⟨i, _, rfl, hreduced⟩
        · exact .inr (.inl ⟨i, _, job, _, rfl, hi, Function.update_self _ _ _, hreduced⟩)

end Reduced

end Movers

end Reduction
