import AgentOAuth.Lib.Interleaving
import AgentOAuth.Lib.Script

/-!
# Scripts interleaved over one store

Any number of processes, each with a job, run the scripts of their jobs over
one store, call by call and in any order, while an environment changes the
store as well.  A process that is never scheduled again has crashed.

`Secures` is what a script can promise about its result when all it knows of
the others is a relation between the store before and after any of their steps.
`Workload.Promise.everywhere` is the rule for runs; with it no two processes
have returned whose jobs exclude each other.
-/

namespace Workloads

open Effect Interleaving

variable {Op κ δ ε σ α : Type} {Answer : Op → Type}

/-- A process has not started, or still has to run the rest of its script. -/
inductive Process (Answer : Op → Type) (κ ε α : Type)
  | idle
  | running (job : κ) (rest : Script Answer ε α)

/-- What is left of a process, run at once. -/
def Process.settle (exec : (x : Op) → EStateM ε σ (Answer x)) : Process Answer κ ε α → σ → σ
  | .idle, s => s
  | .running _ rest, s => rest.final exec s

/-- The process is idle, or done. -/
def AtRest (p : Process Answer κ ε α) : Prop :=
  p = .idle ∨ ∃ job outcome, p = .running job (.finish outcome)

/-- What a process does next: start with a job, or make its next call. -/
inductive Act (κ : Type)
  | submit (job : κ)
  | advance

/-- What the processes run, and on what. -/
structure Workload (Answer : Op → Type) (κ δ ε σ α : Type) where
  exec : (x : Op) → EStateM ε σ (Answer x)
  script : κ → Script Answer ε α
  environment : δ → σ → σ

namespace Workload

/-- The processes, one call at a time. -/
def program (load : Workload Answer κ δ ε σ α) :
    Interleaving.Program σ (Process Answer κ ε α) δ (Act κ) where
  step _ s p act :=
    match p, act with
    | .idle, .submit job => some (s, .running job (load.script job))
    | .running job (.call x next), .advance =>
        some (Script.after load.exec x s,
          .running job (Script.resume next (Script.answer load.exec x s)))
    | _, _ => none
  environment s change := some (load.environment change s)

variable {load : Workload Answer κ δ ε σ α}

/-- A process starts its job, or makes a call and waits for the next one. -/
theorem step_eq_some {i : ℕ} {s t : σ} {p q : Process Answer κ ε α} {act : Act κ} :
    load.program.step i s p act = some (t, q) ↔
      (∃ job, p = .idle ∧ act = .submit job ∧ t = s ∧ q = .running job (load.script job)) ∨
      ∃ job x next, p = .running job (.call x next) ∧ act = .advance ∧
        t = Script.after load.exec x s ∧
          q = .running job (Script.resume next (Script.answer load.exec x s)) := by
  constructor
  · intro h
    cases p with
    | idle =>
        cases act with
        | submit job =>
            obtain ⟨rfl, rfl⟩ := Prod.mk.inj (Option.some.inj h)
            exact .inl ⟨job, rfl, rfl, rfl, rfl⟩
        | advance => cases h
    | running job rest =>
        cases rest with
        | finish outcome => cases act <;> cases h
        | call x next =>
            cases act with
            | submit job => cases h
            | advance =>
                obtain ⟨rfl, rfl⟩ := Prod.mk.inj (Option.some.inj h)
                exact .inr ⟨job, x, next, rfl, rfl, rfl, rfl⟩
  · rintro (⟨job, rfl, rfl, rfl, rfl⟩ | ⟨job, x, next, rfl, rfl, rfl, rfl⟩) <;> rfl

/-- A process that runs a job ran it before, or has just started it. -/
theorem system_running {init : σ → Prop} {c c' : Config σ (Process Answer κ ε α)}
    {e : Event δ (Act κ)} (hstep : (load.program.system init .idle).step c e = some c') {i : ℕ}
    {job : κ} {rest : Script Answer ε α} (h : c'.own i = .running job rest) :
    (∃ k, c.own i = .running job k) ∨ e = .act i (.submit job) ∧ c.own i = .idle := by
  rcases Program.system_step_eq_some.mp hstep with ⟨change, shared, rfl, henv, rfl⟩ |
    ⟨j, act, shared, own, rfl, hact, rfl⟩
  · exact .inl ⟨rest, h⟩
  · by_cases hij : i = j
    · subst hij
      dsimp only at h
      rw [Function.update_self] at h
      rcases step_eq_some.mp hact with ⟨job', hidle, rfl, _, hown⟩ | ⟨job', x, next, hcall, _, _, hown⟩
      · rw [hown] at h
        cases h
        exact .inr ⟨rfl, hidle⟩
      · rw [hown] at h
        cases h
        exact .inl ⟨_, hcall⟩
    · dsimp only at h
      rw [Function.update_of_ne hij] at h
      exact .inl ⟨rest, h⟩

/-- A job that has been started stays. -/
theorem system_keeps_running {init : σ → Prop} {c c' : Config σ (Process Answer κ ε α)}
    {e : Event δ (Act κ)} (hstep : (load.program.system init .idle).step c e = some c') {i : ℕ}
    {job : κ} {rest : Script Answer ε α} (h : c.own i = .running job rest) :
    ∃ k, c'.own i = .running job k := by
  rcases Program.system_step_eq_some.mp hstep with ⟨change, shared, rfl, henv, rfl⟩ |
    ⟨j, act, shared, own, rfl, hact, rfl⟩
  · exact ⟨rest, h⟩
  · by_cases hij : i = j
    · subst hij
      rcases step_eq_some.mp hact with ⟨job', hidle, _⟩ | ⟨job', x, next, hcall, _, _, hown⟩
      · rw [hidle] at h
        cases h
      · rw [hcall] at h
        cases h
        exact ⟨_, (Function.update_self i own c.own).trans hown⟩
    · exact ⟨rest, (Function.update_of_ne hij own c.own).trans h⟩

end Workload

/-! ## What a script promises among others -/

section Secures

variable (exec : (x : Op) → EStateM ε σ (Answer x)) (rely : σ → σ → Prop)

/-- Whatever the others do between its calls, as far as `rely` lets them, the
script returns a value only in a store where it meets `Q`. -/
def Secures (Q : α → σ → Prop) : Script Answer ε α → σ → Prop
  | .finish (.ok a), s => Q a s
  | .finish (.error _), _ => True
  | .call x next, s => ∀ t, rely s t → ∀ v, Script.answer exec x t = .ok v →
      Secures Q (next v) (Script.after exec x t)

variable {exec rely} {β : Type} {Q : α → σ → Prop}

/-- A promise stands when others have moved. -/
theorem Secures.stable (htrans : ∀ s t u, rely s t → rely t u → rely s u)
    (hQ : ∀ a s t, rely s t → Q a s → Q a t) {k : Script Answer ε α} {s t : σ}
    (h : Secures exec rely Q k s) (hst : rely s t) : Secures exec rely Q k t := by
  cases k with
  | finish outcome =>
      cases outcome with
      | ok a => exact hQ a s t hst h
      | error e => trivial
  | call x next => exact fun u htu => h u (htrans s t u hst htu)

theorem secures_trivial (k : Script Answer ε α) (s : σ) :
    Secures exec rely (fun _ _ => True) k s := by
  induction k generalizing s with
  | finish outcome => cases outcome <;> trivial
  | call x next ih => exact fun t _ v _ => ih v _

theorem secures_finish {x : Except ε α} {s : σ} :
    Secures exec rely Q (.finish x) s ↔ ∀ a, x = .ok a → Q a s := by
  cases x <;> simp [Secures]

theorem Secures.bind {P : β → σ → Prop} {k : Script Answer ε β} {s : σ}
    (hk : Secures exec rely P k s) {f : β → Script Answer ε α}
    (hf : ∀ b t, P b t → Secures exec rely Q (f b) t) : Secures exec rely Q (k >>= f) s := by
  induction k generalizing s with
  | finish outcome =>
      cases outcome with
      | ok b => exact hf b s hk
      | error e => trivial
  | call x next ih => exact fun t hst v hv => ih v (hk t hst v hv)

theorem secures_finish_bind {x : Except ε β} {f : β → Script Answer ε α} {s : σ}
    (h : ∀ b, x = .ok b → Secures exec rely Q (f b) s) :
    Secures exec rely Q (.finish x >>= f) s := by
  cases x with
  | ok b => exact h b rfl
  | error e => trivial

end Secures

/-- The script returns a value only right after a call that meets `P`. -/
def EndsIn (P : Op → Prop) : Script Answer ε α → Prop
  | .finish (.ok _) => False
  | .finish (.error _) => True
  | .call x next => ∀ v, (P x ∧ ∃ a, next v = .finish (.ok a)) ∨ EndsIn P (next v)

theorem EndsIn.bind {P : Op → Prop} {β : Type} (k : Script Answer ε β) {f : β → Script Answer ε α}
    (hf : ∀ b, EndsIn P (f b)) : EndsIn P (k >>= f) := by
  induction k with
  | finish outcome =>
      cases outcome with
      | ok b => exact hf b
      | error e => trivial
  | call x next ih => exact fun v => .inr (ih v)

theorem endsIn_finish_bind {P : Op → Prop} {β : Type} {x : Except ε β}
    {f : β → Script Answer ε α} (h : ∀ b, x = .ok b → EndsIn P (f b)) :
    EndsIn P (.finish x >>= f) := by
  cases x with
  | ok b => exact h b rfl
  | error e => trivial

/-- A step that computes on what was returned. -/
theorem EndsIn.map {P : Op → Prop} {β : Type} {k : Script Answer ε β} (hk : EndsIn P k)
    (g : β → α) : EndsIn P (k >>= fun b => pure (g b)) := by
  induction k with
  | finish outcome =>
      cases outcome with
      | ok b => cases hk
      | error e => trivial
  | call x next ih =>
      intro v
      rcases hk v with ⟨hx, a, hnext⟩ | hnext
      · exact .inl ⟨hx, g a, by
          dsimp only
          rw [hnext]
          rfl⟩
      · exact .inr (ih v hnext)

namespace Workload

/-- What the scripts of a workload promise, when every step of any of them and
of the environment is within `rely`. -/
structure Promise (load : Workload Answer κ δ ε σ α) (rely : σ → σ → Prop)
    (Q : κ → α → σ → Prop) : Prop where
  refl : ∀ s, rely s s
  trans : ∀ s t u, rely s t → rely t u → rely s u
  call : ∀ x s, rely s (Script.after load.exec x s)
  change : ∀ change s, rely s (load.environment change s)
  stable : ∀ job a s t, rely s t → Q job a s → Q job a t
  script : ∀ job s, Secures load.exec rely (Q job) (load.script job) s

variable {load : Workload Answer κ δ ε σ α} {rely : σ → σ → Prop} {Q : κ → α → σ → Prop}
  {init : σ → Prop} {c : Config σ (Process Answer κ ε α)}

/-- What a process has still promised. -/
def Promises (load : Workload Answer κ δ ε σ α) (rely : σ → σ → Prop) (Q : κ → α → σ → Prop)
    (s : σ) : Process Answer κ ε α → Prop
  | .idle => True
  | .running job rest => Secures load.exec rely (Q job) rest s

theorem Promise.promises_stable (h : load.Promise rely Q) {s t : σ} (hst : rely s t)
    {p : Process Answer κ ε α} (hp : load.Promises rely Q s p) : load.Promises rely Q t p := by
  cases p with
  | idle => trivial
  | running job rest => exact Secures.stable h.trans (h.stable job) hp hst

/-- A step keeps what the process that makes it has promised. -/
theorem Promise.step (h : load.Promise rely Q) {i : ℕ} {s t : σ} {p q : Process Answer κ ε α}
    {act : Act κ} (hp : load.Promises rely Q s p)
    (hstep : load.program.step i s p act = some (t, q)) : rely s t ∧ load.Promises rely Q t q := by
  rcases step_eq_some.mp hstep with ⟨job, rfl, rfl, rfl, rfl⟩ | ⟨job, x, next, rfl, rfl, rfl, rfl⟩
  · exact ⟨h.refl t, h.script job t⟩
  · refine ⟨h.call x s, ?_⟩
    change Secures load.exec rely (Q job) (Script.resume next _) _
    cases hanswer : Script.answer load.exec x s with
    | ok v => exact hp s (h.refl s) v hanswer
    | error e => trivial

/-- The call after which the process returns is still to come, or it has. -/
def Ending (last : κ → Op → Prop) : Process Answer κ ε α → Prop
  | .idle => True
  | .running job rest => EndsIn (last job) rest ∨ ∃ a, rest = .finish (.ok a)

/-- Both processes have returned, with jobs in conflict. -/
def Clash (conflict : κ → κ → Prop) (p q : Process Answer κ ε α) : Prop :=
  ∃ a b r r', p = .running a (.finish (.ok r)) ∧ q = .running b (.finish (.ok r')) ∧ conflict a b

/-- **The run lemma for promises**: they hold of every process, and no two have
returned with jobs in conflict, if the last call of a job is refused once a job
in conflict with it has returned. -/
theorem Promise.everywhere (h : load.Promise rely Q) {last : κ → Op → Prop}
    {conflict : κ → κ → Prop} (hsymm : ∀ a b, conflict a b → conflict b a)
    (hlast : ∀ job, EndsIn (last job) (load.script job))
    (hrefused : ∀ a b r x s, conflict a b → Q a r s → last b x →
      ∀ v, Script.answer load.exec x s ≠ .ok v)
    (hc : (load.program.system init .idle).Reachable c) :
    Program.Everywhere (fun _ => True)
      (fun _ s p => load.Promises rely Q s p ∧ Ending last p) (fun p q => ¬ Clash conflict p q) c := by
  have hinvariant : Program.Invariant load.program (fun _ => True)
      (fun _ s p => load.Promises rely Q s p ∧ Ending last p)
        (fun p q => ¬ Clash conflict p q) := by
    refine ⟨?_, ?_, ?_, ?_⟩
    · rintro p q hpq ⟨b, a, r', r, hq, hp, hconflict⟩
      exact hpq ⟨a, b, r, r', hp, hq, hsymm b a hconflict⟩
    · rintro i s p act t q _ ⟨hp, hending⟩ hstep
      refine ⟨trivial, (h.step hp hstep).2, ?_⟩
      rcases step_eq_some.mp hstep with ⟨job, rfl, rfl, rfl, rfl⟩ |
        ⟨job, x, next, rfl, rfl, rfl, rfl⟩
      · exact .inl (hlast job)
      · rcases hending with hending | ⟨a, hfinish⟩
        · change EndsIn (last job) (Script.resume next _) ∨ ∃ a, Script.resume next _ = _
          cases Script.answer load.exec x s with
          | error e => exact .inl trivial
          | ok v =>
              rcases hending v with ⟨_, a, hnext⟩ | hnext
              · exact .inr ⟨a, hnext⟩
              · exact .inl hnext
        · cases hfinish
    · -- a process that ends by its last call is refused it while the other's promise stands
      rintro i j s p m act t q _ ⟨hp, hending⟩ ⟨hm, hendingm⟩ _ hpm hstep
      refine ⟨⟨h.promises_stable (h.step hp hstep).1 hm, hendingm⟩, ?_⟩
      rintro ⟨a, b, r, r', hq, rfl, hconflict⟩
      rcases step_eq_some.mp hstep with ⟨job, rfl, rfl, rfl, rfl⟩ |
        ⟨job, x, next, rfl, rfl, rfl, rfl⟩
      · obtain ⟨rfl, hscript⟩ := Process.running.inj hq
        have hends := hlast job
        rw [hscript] at hends
        exact hends
      · obtain ⟨rfl, hresume⟩ := Process.running.inj hq
        rcases hending with hending | ⟨_, hfinish⟩
        · cases hanswer : Script.answer load.exec x s with
          | error e =>
              rw [hanswer] at hresume
              cases hresume
          | ok v =>
              rw [hanswer, Script.resume_ok] at hresume
              rcases hending v with ⟨hx, _⟩ | hnext
              · exact hrefused b job r' x s (hsymm job b hconflict) hm hx v hanswer
              · rw [hresume] at hnext
                exact hnext
        · cases hfinish
    · intro s change t _ hchange
      obtain rfl := Option.some.inj hchange
      exact ⟨trivial, fun i p ⟨hp, hending⟩ => ⟨h.promises_stable (h.change change s) hp, hending⟩⟩
  refine hinvariant.everywhere ?_ ?_ hc
  · exact fun s _ => ⟨trivial, fun _ => ⟨trivial, trivial⟩⟩
  · rintro ⟨a, b, r, r', hp, _⟩
    cases hp

end Workload

end Workloads
