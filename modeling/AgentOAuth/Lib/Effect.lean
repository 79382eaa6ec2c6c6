import Mathlib.Tactic.Common

/-!
# Programs with exceptions and a state that outlives them

`EStateM ε σ` runs a program that may raise an exception and whose state
changes survive the exception, which is how a program that commits to a
database behaves.  This file has the two rules used to take such programs
apart: a run of `x >>= f` that returns has an intermediate state
(`run_bind_eq_ok`), and what each half leaves unchanged the whole leaves
unchanged (`Keeps`).  The pure fragment is `Except ε`, entered with `lift`.
-/

namespace Effect

variable {ε σ α β γ : Type}

/-! ## Exceptions without a state -/

theorem bind_eq_ok {x : Except ε α} {f : α → Except ε β} {b : β} :
    (x >>= f) = .ok b ↔ ∃ a, x = .ok a ∧ f a = .ok b := by
  cases x <;> simp [bind, Except.bind]

/-- A first half that is known to return hands over to the second. -/
theorem bind_of_ok {x : Except ε α} {a : α} (h : x = .ok a) (f : α → Except ε β) :
    (x >>= f) = f a := by
  rw [h]
  rfl

theorem bind_eq_error {x : Except ε α} {f : α → Except ε β} {e : ε} :
    (x >>= f) = .error e ↔ x = .error e ∨ ∃ a, x = .ok a ∧ f a = .error e := by
  cases x <;> simp [bind, Except.bind]

theorem pure_eq_ok {a b : α} : (pure a : Except ε α) = .ok b ↔ a = b := by
  simp [pure, Except.pure]

theorem map_eq_ok {x : Except ε α} {f : α → β} {b : β} :
    x.map f = .ok b ↔ ∃ a, x = .ok a ∧ f a = b := by
  cases x <;> simp [Except.map]

theorem isOk_iff {x : Except ε α} : x.isOk = true ↔ ∃ a, x = .ok a := by
  cases x <;> simp [Except.isOk, Except.toBool]

theorem toOption_eq_some {x : Except ε α} {a : α} : x.toOption = some a ↔ x = .ok a := by
  cases x <;> simp [Except.toOption]

/-- Raise `e` when `condition` holds. -/
def raiseIf (condition : Prop) [Decidable condition] (e : ε) : Except ε Unit :=
  if condition then .error e else .ok ()

@[simp] theorem raiseIf_eq_ok {condition : Prop} [Decidable condition] {e : ε} {u : Unit} :
    raiseIf condition e = .ok u ↔ ¬ condition := by
  unfold raiseIf
  split <;> simp_all

@[simp] theorem raiseIf_eq_error {condition : Prop} [Decidable condition] {e e' : ε} :
    raiseIf condition e = .error e' ↔ condition ∧ e = e' := by
  unfold raiseIf
  split <;> simp_all

theorem raiseIf_bind_of_not {condition : Prop} [Decidable condition] (h : ¬ condition) (e : ε)
    (f : Unit → Except ε β) : (raiseIf condition e >>= f) = f () :=
  bind_of_ok (if_neg h) f

/-- `x` raises nothing. -/
def Returns (x : Except ε α) : Prop :=
  ∃ a, x = .ok a

@[simp] theorem returns_ok (a : α) : Returns (.ok a : Except ε α) := ⟨a, rfl⟩

@[simp] theorem returns_pure (a : α) : Returns (pure a : Except ε α) := ⟨a, rfl⟩

@[simp] theorem not_returns_error (e : ε) : ¬ Returns (.error e : Except ε α) := by
  simp [Returns]

@[simp] theorem returns_raiseIf {condition : Prop} [Decidable condition] {e : ε} :
    Returns (raiseIf condition e) ↔ ¬ condition := by
  simp [Returns]

/-- A sequence returns when its first half does, and its second half does on
whatever the first one returned. -/
theorem returns_bind {x : Except ε α} {f : α → Except ε β} :
    Returns (x >>= f) ↔ Returns x ∧ ∀ a, x = .ok a → Returns (f a) := by
  cases x with
  | error e => simp [Returns, bind, Except.bind]
  | ok a => simp [Returns, bind, Except.bind]

theorem returns_iff_forall_ne {x : Except ε α} : Returns x ↔ ∀ e, x ≠ .error e := by
  cases x <;> simp [Returns]

/-- Whatever `x` raises is among `P`. -/
def Raises (P : ε → Prop) (x : Except ε α) : Prop :=
  ∀ e, x = .error e → P e

variable {P : ε → Prop}

theorem Raises.mono {Q : ε → Prop} {x : Except ε α} (h : Raises P x) (himp : ∀ e, P e → Q e) :
    Raises Q x :=
  fun e he => himp e (h e he)

theorem raises_ok (a : α) : Raises P (.ok a : Except ε α) := by
  simp [Raises]

theorem raises_pure (a : α) : Raises P (pure a : Except ε α) := raises_ok a

theorem raises_error {e : ε} (h : P e) : Raises P (.error e : Except ε α) := by
  rintro e' ⟨⟩
  exact h

theorem raises_raiseIf {condition : Prop} [Decidable condition] {e : ε} (h : P e) :
    Raises P (raiseIf condition e) := by
  intro e' he
  rw [raiseIf_eq_error] at he
  exact he.2 ▸ h

/-- The second half only has to be looked at for what the first one returns. -/
theorem Raises.bind_of_ok {x : Except ε α} {f : α → Except ε β} (hx : Raises P x)
    (hf : ∀ a, x = .ok a → Raises P (f a)) : Raises P (x >>= f) := by
  intro e he
  rcases bind_eq_error.mp he with h | ⟨a, ha, h⟩
  · exact hx e h
  · exact hf a ha e h

theorem Raises.bind {x : Except ε α} {f : α → Except ε β} (hx : Raises P x)
    (hf : ∀ a, Raises P (f a)) : Raises P (x >>= f) :=
  hx.bind_of_ok fun a _ => hf a

theorem raises_of_returns {x : Except ε α} (h : Returns x) : Raises P x := by
  obtain ⟨a, rfl⟩ := h
  exact raises_ok a

/-! ## Programs with a state -/

/-- The state a run ends in, whether it returns or raises. -/
def finalState : EStateM.Result ε σ α → σ
  | .ok _ s => s
  | .error _ s => s

@[simp] theorem finalState_ok (a : α) (s : σ) :
    finalState (.ok a s : EStateM.Result ε σ α) = s := rfl

@[simp] theorem finalState_error (e : ε) (s : σ) :
    finalState (.error e s : EStateM.Result ε σ α) = s := rfl

/-- What a run returns, if it does. -/
def value? : EStateM.Result ε σ α → Option α
  | .ok a _ => some a
  | .error _ _ => none

theorem value?_eq_some {r : EStateM.Result ε σ α} {a : α} : value? r = some a ↔ ∃ s, r = .ok a s := by
  cases r <;> simp [value?]

/-- What a run returns or raises. -/
def outcome : EStateM.Result ε σ α → Except ε α
  | .ok a _ => .ok a
  | .error e _ => .error e

@[simp] theorem outcome_ok (a : α) (s : σ) : outcome (.ok a s : EStateM.Result ε σ α) = .ok a := rfl

@[simp] theorem outcome_error (e : ε) (s : σ) :
    outcome (.error e s : EStateM.Result ε σ α) = .error e := rfl

theorem outcome_eq_error {r : EStateM.Result ε σ α} {e : ε} :
    outcome r = .error e ↔ ∃ s, r = .error e s := by
  cases r <;> simp

/-- A computation without a state, run inside a program with one. -/
def lift : Except ε α → EStateM ε σ α
  | .ok a => pure a
  | .error e => throw e

@[simp] theorem run_lift_ok (a : α) (s : σ) :
    (lift (.ok a) : EStateM ε σ α).run s = .ok a s := rfl

@[simp] theorem run_lift_error (e : ε) (s : σ) :
    (lift (.error e) : EStateM ε σ α).run s = .error e s := rfl

@[simp] theorem outcome_lift (x : Except ε α) (s : σ) :
    outcome ((lift x : EStateM ε σ α).run s) = x := by
  cases x <;> rfl

@[simp] theorem finalState_lift (x : Except ε α) (s : σ) :
    finalState ((lift x : EStateM ε σ α).run s) = s := by
  cases x <;> rfl

theorem run_lift_eq_ok {x : Except ε α} {a : α} {s t : σ} :
    (lift x : EStateM ε σ α).run s = .ok a t ↔ x = .ok a ∧ s = t := by
  cases x <;> simp

theorem run_lift_eq_error {x : Except ε α} {e : ε} {s t : σ} :
    (lift x : EStateM ε σ α).run s = .error e t ↔ x = .error e ∧ s = t := by
  cases x <;> simp

/-- One atomic statement: it fails and changes nothing, or returns a value and
the next state. -/
def atomically (f : σ → Except ε (α × σ)) : EStateM ε σ α := fun s =>
  match f s with
  | .ok (a, t) => .ok a t
  | .error e => .error e s

theorem run_atomically (f : σ → Except ε (α × σ)) (s : σ) :
    (atomically f).run s =
      match f s with
      | .ok (a, t) => .ok a t
      | .error e => .error e s := rfl

theorem run_atomically_eq_ok {f : σ → Except ε (α × σ)} {a : α} {s t : σ} :
    (atomically f).run s = .ok a t ↔ f s = .ok (a, t) := by
  rw [run_atomically]
  rcases f s with _ | ⟨b, u⟩ <;> simp

theorem run_atomically_eq_error {f : σ → Except ε (α × σ)} {e : ε} {s t : σ} :
    (atomically f).run s = .error e t ↔ f s = .error e ∧ s = t := by
  rw [run_atomically]
  rcases f s with _ | ⟨b, u⟩ <;> simp

/-- A statement that returns ends in no error state. -/
theorem run_atomically_quiet {f : σ → Except ε (α × σ)} {s : σ} :
    (∀ e t, (atomically f).run s ≠ .error e t) ↔ Returns (f s) := by
  rw [returns_iff_forall_ne]
  simp only [ne_eq, run_atomically_eq_error, not_and]
  constructor
  · intro h e he
    exact h e s he rfl
  · intro h e t he
    exact absurd he (h e)

/-- A sequence that returns passes through an intermediate state. -/
theorem run_bind_eq_ok {x : EStateM ε σ α} {f : α → EStateM ε σ β} {s t : σ} {b : β} :
    (x >>= f).run s = .ok b t ↔ ∃ a u, x.run s = .ok a u ∧ (f a).run u = .ok b t := by
  rw [EStateM.run_bind]
  cases x.run s <;> simp

/-- A first half that is known to return hands over to the second. -/
theorem run_bind_of_ok {x : EStateM ε σ α} {s u : σ} {a : α} (h : x.run s = .ok a u)
    (f : α → EStateM ε σ β) : (x >>= f).run s = (f a).run u := by
  rw [EStateM.run_bind, h]

theorem run_lift_bind_of_ok {x : Except ε α} {a : α} (h : x = .ok a) (f : α → EStateM ε σ β)
    (s : σ) : (lift x >>= f).run s = (f a).run s :=
  run_bind_of_ok (run_lift_eq_ok.mpr ⟨h, rfl⟩) f

theorem run_get_bind (f : σ → EStateM ε σ β) (s : σ) : (get >>= f).run s = (f s).run s := rfl

/-- A sequence that raises does so in its first or in its second half. -/
theorem run_bind_eq_error {x : EStateM ε σ α} {f : α → EStateM ε σ β} {s t : σ} {e : ε} :
    (x >>= f).run s = .error e t ↔
      x.run s = .error e t ∨ ∃ a u, x.run s = .ok a u ∧ (f a).run u = .error e t := by
  rw [EStateM.run_bind]
  cases x.run s <;> simp

/-- However `x` ends, it leaves the `view` of the state as it found it. -/
def Keeps (view : σ → γ) (x : EStateM ε σ α) : Prop :=
  ∀ s, view (finalState (x.run s)) = view s

variable {view : σ → γ}

theorem Keeps.of_ok {x : EStateM ε σ α} (h : Keeps view x) {s t : σ} {a : α}
    (hrun : x.run s = .ok a t) : view t = view s := by
  have := h s
  rwa [hrun] at this

theorem Keeps.of_error {x : EStateM ε σ α} (h : Keeps view x) {s t : σ} {e : ε}
    (hrun : x.run s = .error e t) : view t = view s := by
  have := h s
  rwa [hrun] at this

/-- What is kept is kept in every part of it. -/
theorem Keeps.map {δ : Type} {x : EStateM ε σ α} (h : Keeps view x) (part : γ → δ) :
    Keeps (fun s => part (view s)) x :=
  fun s => congrArg part (h s)

theorem keeps_pure (a : α) : Keeps view (pure a : EStateM ε σ α) := fun _ => rfl

theorem keeps_throw (e : ε) : Keeps view (throw e : EStateM ε σ α) := fun _ => rfl

theorem keeps_get : Keeps view (get : EStateM ε σ σ) := fun _ => rfl

theorem keeps_lift (x : Except ε α) : Keeps view (lift x : EStateM ε σ α) := by
  intro s
  cases x <;> rfl

theorem keeps_atomically {f : σ → Except ε (α × σ)}
    (h : ∀ s a t, f s = .ok (a, t) → view t = view s) : Keeps view (atomically f) := by
  intro s
  cases hrun : (atomically f).run s with
  | ok a t => exact h s a t (run_atomically_eq_ok.mp hrun)
  | error e t => rw [finalState_error, (run_atomically_eq_error.mp hrun).2]

theorem Keeps.bind {x : EStateM ε σ α} {f : α → EStateM ε σ β} (hx : Keeps view x)
    (hf : ∀ a, Keeps view (f a)) : Keeps view (x >>= f) := by
  intro s
  rw [EStateM.run_bind]
  cases hrun : x.run s with
  | ok a t => exact (hf a t).trans (hx.of_ok hrun)
  | error e t => exact hx.of_error hrun

/-- What follows and keeps the state does not decide where the run ends. -/
theorem finalState_bind_of_keeps {x : EStateM ε σ α} {f : α → EStateM ε σ β}
    (hf : ∀ a, Keeps (fun s => s) (f a)) (s : σ) :
    finalState ((x >>= f).run s) = finalState (x.run s) := by
  rw [EStateM.run_bind]
  cases x.run s with
  | ok a t => exact hf a t
  | error e t => rfl

/-- Renaming an exception leaves the state alone. -/
theorem finalState_adaptExcept {ε' : Type} {x : EStateM ε σ α} (f : ε → ε') (s : σ) :
    finalState ((x.adaptExcept f).run s) = finalState (x.run s) := by
  unfold EStateM.adaptExcept EStateM.run
  beta_reduce
  split <;> simp_all

end Effect
