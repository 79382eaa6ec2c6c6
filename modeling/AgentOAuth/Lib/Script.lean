import AgentOAuth.Lib.Effect

/-!
# Programs cut at their statements

A script is a program seen from the store it talks to: it calls one operation,
waits for the answer, and goes on.  What happens between two calls is pure.
Other programs may run while a script waits, so the same script can be run
without interruption (`Script.run`, an `EStateM` program) or advanced by one
call at a time (`Script.resume`).

`run_bind` and the lemmas beside it make `Script.run` a map of monads, which is
how a script is shown to be an existing program, cut up.
-/

namespace Effect

/-- A program that calls operations `Op`, each answered by a value or by an
exception that ends it. -/
inductive Script {Op : Type} (Answer : Op → Type) (ε α : Type)
  | finish (outcome : Except ε α)
  | call (x : Op) (next : Answer x → Script Answer ε α)

namespace Script

variable {Op : Type} {Answer : Op → Type} {ε σ α β : Type}

/-- The second script goes on with what the first returns; an error ends both. -/
def bind : Script Answer ε α → (α → Script Answer ε β) → Script Answer ε β
  | finish (.ok a), f => f a
  | finish (.error e), _ => finish (.error e)
  | call x next, f => call x fun v => (next v).bind f

instance : Monad (Script Answer ε) where
  pure a := finish (.ok a)
  bind := bind

/-- A script that calls one operation. -/
def op (x : Op) : Script Answer ε (Answer x) := call x fun v => finish (.ok v)

@[simp] theorem pure_eq (a : α) : (pure a : Script Answer ε α) = finish (.ok a) := rfl

@[simp] theorem finish_ok_bind (a : α) (f : α → Script Answer ε β) :
    (finish (.ok a) >>= f) = f a := rfl

@[simp] theorem finish_error_bind (e : ε) (f : α → Script Answer ε β) :
    (finish (.error e) >>= f) = finish (.error e) := rfl

@[simp] theorem call_bind (x : Op) (next : Answer x → Script Answer ε α)
    (f : α → Script Answer ε β) : (call x next >>= f) = call x fun v => next v >>= f := rfl

@[simp] theorem op_bind (x : Op) (f : Answer x → Script Answer ε β) :
    (op x >>= f) = call x f := rfl

/-- The rest of a script once its call is answered. -/
def resume {x : Op} (next : Answer x → Script Answer ε α) : Except ε (Answer x) → Script Answer ε α
  | .ok v => next v
  | .error e => finish (.error e)

@[simp] theorem resume_ok {x : Op} (next : Answer x → Script Answer ε α) (v : Answer x) :
    resume next (.ok v) = next v := rfl

@[simp] theorem resume_error {x : Op} (next : Answer x → Script Answer ε α) (e : ε) :
    resume next (.error e) = finish (.error e) := rfl

/-! ## Every call of a script -/

/-- `P` holds of every operation the script may come to call. -/
def Every (P : Op → Prop) : Script Answer ε α → Prop
  | finish _ => True
  | call x next => P x ∧ ∀ v, (next v).Every P

variable {P Q : Op → Prop}

@[simp] theorem every_finish (outcome : Except ε α) :
    (finish outcome : Script Answer ε α).Every P := trivial

@[simp] theorem every_call {x : Op} {next : Answer x → Script Answer ε α} :
    (call x next).Every P ↔ P x ∧ ∀ v, (next v).Every P := Iff.rfl

theorem Every.bind {k : Script Answer ε α} (hk : k.Every P) {f : α → Script Answer ε β}
    (hf : ∀ a, (f a).Every P) : (k >>= f).Every P := by
  induction k with
  | finish outcome =>
      cases outcome with
      | ok a => exact hf a
      | error e => trivial
  | call x next ih => exact ⟨hk.1, fun v => ih v (hk.2 v)⟩

theorem every_finish_bind {x : Except ε α} {f : α → Script Answer ε β}
    (h : ∀ a, x = .ok a → (f a).Every P) : (finish x >>= f).Every P := by
  cases x with
  | ok a => exact h a rfl
  | error e => trivial

theorem Every.mono {k : Script Answer ε α} (hk : k.Every P) (himp : ∀ x, P x → Q x) :
    k.Every Q := by
  induction k with
  | finish outcome => trivial
  | call x next ih => exact ⟨himp x hk.1, fun v => ih v (hk.2 v)⟩

theorem Every.resume {x : Op} {next : Answer x → Script Answer ε α}
    (h : ∀ v, (next v).Every P) (answer : Except ε (Answer x)) : (resume next answer).Every P := by
  cases answer with
  | ok v => exact h v
  | error e => trivial

/-- `P` holds of every operation the script may come to call, as long as all
answers are among those that are expected. -/
def EveryWhen (expects : (x : Op) → Answer x → Prop) (P : Op → Prop) : Script Answer ε α → Prop
  | finish _ => True
  | call x next => P x ∧ ∀ v, expects x v → (next v).EveryWhen expects P

section EveryWhen

variable {expects : (x : Op) → Answer x → Prop}

theorem EveryWhen.bind {k : Script Answer ε α} (hk : k.EveryWhen expects P)
    {f : α → Script Answer ε β} (hf : ∀ a, (f a).EveryWhen expects P) :
    (k >>= f).EveryWhen expects P := by
  induction k with
  | finish outcome =>
      cases outcome with
      | ok a => exact hf a
      | error e => trivial
  | call x next ih => exact ⟨hk.1, fun v hv => ih v (hk.2 v hv)⟩

theorem everyWhen_finish_bind {x : Except ε α} {f : α → Script Answer ε β}
    (h : ∀ a, x = .ok a → (f a).EveryWhen expects P) :
    (finish x >>= f).EveryWhen expects P := by
  cases x with
  | ok a => exact h a rfl
  | error e => trivial

theorem everyWhen_op_bind {x : Op} {f : Answer x → Script Answer ε β} (hx : P x)
    (hf : ∀ v, expects x v → (f v).EveryWhen expects P) : (op x >>= f).EveryWhen expects P :=
  ⟨hx, hf⟩

theorem EveryWhen.resume {x : Op} {next : Answer x → Script Answer ε α}
    {answer : Except ε (Answer x)}
    (h : ∀ v, answer = .ok v → (next v).EveryWhen expects P) :
    (Script.resume next answer).EveryWhen expects P := by
  cases answer with
  | ok v => exact h v rfl
  | error e => trivial

end EveryWhen

/-! ## Running a script -/

section Run

variable (exec : (x : Op) → EStateM ε σ (Answer x))

/-- What an operation answers in a state. -/
def answer (x : Op) (s : σ) : Except ε (Answer x) := outcome ((exec x).run s)

/-- The state an operation leaves behind. -/
def after (x : Op) (s : σ) : σ := finalState ((exec x).run s)

/-- The script without interruption. -/
def run : Script Answer ε α → EStateM ε σ α
  | finish outcome => lift outcome
  | call x next => exec x >>= fun v => (next v).run

@[simp] theorem run_finish (outcome : Except ε α) :
    (finish outcome : Script Answer ε α).run exec = (lift outcome : EStateM ε σ α) := rfl

theorem run_op (x : Op) : (op x : Script Answer ε (Answer x)).run exec = exec x := by
  funext s
  change (exec x >>= fun v => pure v).run s = (exec x).run s
  rw [EStateM.run_bind]
  cases (exec x).run s <;> rfl

theorem run_bind (k : Script Answer ε α) (f : α → Script Answer ε β) :
    (k >>= f).run exec = k.run exec >>= fun a => (f a).run exec := by
  induction k with
  | finish outcome => cases outcome <;> rfl
  | call x next ih =>
      funext s
      change (exec x >>= fun v => (next v >>= f).run exec).run s =
        ((exec x >>= fun v => (next v).run exec) >>= fun a => (f a).run exec).run s
      simp only [EStateM.run_bind, ih]
      cases (exec x).run s <;> rfl

/-- Two programs that go on alike from what a computation may return. -/
theorem lift_bind_congr {x : Except ε α} {f g : α → EStateM ε σ β}
    (h : ∀ a, x = .ok a → f a = g a) :
    ((lift x : EStateM ε σ α) >>= f) = (lift x : EStateM ε σ α) >>= g := by
  cases x with
  | ok a => exact h a rfl
  | error e => rfl

/-- A run makes the first call and goes on from its answer. -/
theorem run_call (x : Op) (next : Answer x → Script Answer ε α) (s : σ) :
    ((call x next).run exec).run s =
      ((resume next (answer exec x s)).run exec).run (after exec x s) := by
  change (exec x >>= fun v => (next v).run exec).run s = _
  rw [EStateM.run_bind, answer, after]
  cases (exec x).run s <;> rfl

/-- What a run of a script returns or raises. -/
def result (k : Script Answer ε α) (s : σ) : Except ε α := outcome ((k.run exec).run s)

/-- The state a run of a script ends in. -/
def final (k : Script Answer ε α) (s : σ) : σ := finalState ((k.run exec).run s)

variable {exec}

@[simp] theorem result_finish (outcome : Except ε α) (s : σ) :
    (finish outcome : Script Answer ε α).result exec s = outcome := outcome_lift outcome s

@[simp] theorem final_finish (outcome : Except ε α) (s : σ) :
    (finish outcome : Script Answer ε α).final exec s = s := finalState_lift outcome s

theorem result_call (x : Op) (next : Answer x → Script Answer ε α) (s : σ) :
    (call x next).result exec s =
      (resume next (answer exec x s)).result exec (after exec x s) := by
  rw [result, run_call, result]

theorem final_call (x : Op) (next : Answer x → Script Answer ε α) (s : σ) :
    (call x next).final exec s =
      (resume next (answer exec x s)).final exec (after exec x s) := by
  rw [final, run_call, final]

/-- **No script can tell two stores apart** whose operations answer alike. -/
theorem refines {τ : Type} {exec' : (x : Op) → EStateM ε τ (Answer x)} {R : σ → τ → Prop}
    (h : ∀ x s t, R s t → answer exec x s = answer exec' x t ∧ R (after exec x s) (after exec' x t))
    (k : Script Answer ε α) {s : σ} {t : τ} (hst : R s t) :
    k.result exec s = k.result exec' t ∧ R (k.final exec s) (k.final exec' t) := by
  induction k generalizing s t with
  | finish outcome =>
      rw [result_finish, result_finish, final_finish, final_finish]
      exact ⟨rfl, hst⟩
  | call x next ih =>
      obtain ⟨hanswer, hafter⟩ := h x s t hst
      rw [result_call, result_call, final_call, final_call, hanswer]
      cases answer exec' x t with
      | ok v => exact ih v hafter
      | error e =>
          rw [resume_error, result_finish, result_finish, final_finish, final_finish]
          exact ⟨rfl, hafter⟩

/-! ### Scripts that only read -/

/-- However it is run, the script leaves the store alone and ends as `f` says. -/
def Reads (exec : (x : Op) → EStateM ε σ (Answer x)) (k : Script Answer ε α)
    (f : σ → Except ε α) : Prop :=
  ∀ s, (k.run exec).run s = (lift (f s) : EStateM ε σ α).run s

theorem reads_finish (outcome : Except ε α) :
    Reads exec (finish outcome : Script Answer ε α) fun _ => outcome := fun _ => rfl

theorem reads_op {x : Op} {f : σ → Except ε (Answer x)}
    (h : ∀ s, (exec x).run s = (lift (f s) : EStateM ε σ (Answer x)).run s) :
    Reads exec (op x : Script Answer ε (Answer x)) f := by
  intro s
  rw [run_op, h]

theorem Reads.bind {k : Script Answer ε α} {f : σ → Except ε α} (hk : Reads exec k f)
    {l : α → Script Answer ε β} {g : σ → α → Except ε β}
    (hl : ∀ a, Reads exec (l a) fun s => g s a) :
    Reads exec (k >>= l) fun s => f s >>= g s := by
  intro s
  rw [run_bind, EStateM.run_bind, hk s]
  dsimp only
  cases f s with
  | ok a => exact hl a s
  | error e => rfl

/-- A script that only reads can be run where the state has been read. -/
theorem Reads.run_eq {k : Script Answer ε α} {f : σ → Except ε α} (h : Reads exec k f) :
    k.run exec = get >>= fun s => lift (f s) := by
  funext s
  exact h s

/-- How every operation of a script may change the store, its run does. -/
theorem Every.final_rel {R : σ → σ → Prop} (hrefl : ∀ s, R s s)
    (htrans : ∀ {s t u}, R s t → R t u → R s u) (hstep : ∀ x, P x → ∀ s, R s (after exec x s))
    {k : Script Answer ε α} (hk : k.Every P) (s : σ) : R s (k.final exec s) := by
  induction k generalizing s with
  | finish outcome =>
      rw [final_finish]
      exact hrefl s
  | call x next ih =>
      rw [final_call]
      have hone := hstep x hk.1 s
      cases answer exec x s with
      | ok v => exact htrans hone (ih v (hk.2 v) _)
      | error e =>
          rw [resume_error, final_finish]
          exact hone

end Run

end Script

end Effect
