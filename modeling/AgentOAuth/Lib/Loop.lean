import Mathlib.Tactic.Common

/-!
# Loops without a bound

A `while` loop is given by its body: a round goes on with a new state, leaves
the loop with a result, or raises.  `Ends body n s r` says that the loop that
starts in `s` ends with `r` after `n` rounds that went on.  There is no fuel, so
a loop that never stops ends with nothing.

A loop ends when some rank gets smaller in every round (`exists_ends`), and then
with the value of any function that unfolds as the loop does (`ends_iff`); what
else is true of its result is shown round by round (`Ends.rule`).
-/

namespace Loop

variable {σ ε α : Type*}

/-- What one round does. -/
inductive Round (σ ε α : Type*)
  | next (s : σ)
  | done (a : α)
  | raise (e : ε)

/-- What comes of a round when `rest` says what comes of the next state. -/
def Round.outcome (rest : σ → Except ε α) : Round σ ε α → Except ε α
  | next s => rest s
  | done a => .ok a
  | raise e => .error e

/-- The loop that starts in `s` ends with `r`, after `n` rounds that went on. -/
inductive Ends (body : σ → Round σ ε α) : ℕ → σ → Except ε α → Prop
  | done {s : σ} {a : α} : body s = .done a → Ends body 0 s (.ok a)
  | raise {s : σ} {e : ε} : body s = .raise e → Ends body 0 s (.error e)
  | next {s t : σ} {n : ℕ} {r : Except ε α} :
      body s = .next t → Ends body n t r → Ends body (n + 1) s r

variable {body : σ → Round σ ε α} {P : σ → Prop} {rank : σ → ℕ} {f : σ → Except ε α} {n : ℕ}
  {s : σ} {r : Except ε α}

/-- **A loop ends when a rank gets smaller in every round**, and no later than
the rank says. -/
theorem exists_ends (hround : ∀ s t, P s → body s = .next t → P t ∧ rank t < rank s) (hs : P s) :
    ∃ n ≤ rank s, ∃ r, Ends body n s r := by
  induction hrank : rank s using Nat.strongRecOn generalizing s with
  | ind k ih =>
      cases hbody : body s with
      | done a => exact ⟨0, Nat.zero_le _, _, .done hbody⟩
      | raise e => exact ⟨0, Nat.zero_le _, _, .raise hbody⟩
      | next t =>
          obtain ⟨ht, hlt⟩ := hround s t hs hbody
          obtain ⟨n, hn, r, hends⟩ := ih (rank t) (hrank ▸ hlt) ht rfl
          exact ⟨n + 1, by omega, r, .next hbody hends⟩

/-- **The rule for loops.**  What holds of the rounds that end a loop, and of a
state when it holds of the next one, holds of every run. -/
theorem Ends.rule {Q : σ → Except ε α → Prop} (hround : ∀ s t, P s → body s = .next t → P t)
    (hdone : ∀ s a, P s → body s = .done a → Q s (.ok a))
    (hraise : ∀ s e, P s → body s = .raise e → Q s (.error e))
    (hnext : ∀ s t r, P s → body s = .next t → Q t r → Q s r)
    (h : Ends body n s r) (hs : P s) : Q s r := by
  induction h with
  | done hbody => exact hdone _ _ hs hbody
  | raise hbody => exact hraise _ _ hs hbody
  | next hbody _ ih => exact hnext _ _ _ hs hbody (ih (hround _ _ hs hbody))

/-- A loop ends with the value of a function that unfolds as it does. -/
theorem Ends.eq_of_unfold (hunfold : ∀ s, P s → f s = (body s).outcome f)
    (hround : ∀ s t, P s → body s = .next t → P t) (hs : P s) (h : Ends body n s r) : r = f s := by
  refine h.rule (Q := fun s r => r = f s) hround ?_ ?_ ?_ hs
  · intro s a hs hbody
    rw [hunfold s hs, hbody, Round.outcome]
  · intro s e hs hbody
    rw [hunfold s hs, hbody, Round.outcome]
  · rintro s t r hs hbody rfl
    rw [hunfold s hs, hbody, Round.outcome]

theorem ends_iff (hround : ∀ s t, P s → body s = .next t → P t ∧ rank t < rank s)
    (hunfold : ∀ s, P s → f s = (body s).outcome f) (hs : P s) :
    (∃ n, Ends body n s r) ↔ r = f s := by
  have hends : ∀ {n r'}, Ends body n s r' → r' = f s :=
    Ends.eq_of_unfold hunfold (fun s t hs hbody => (hround s t hs hbody).1) hs
  constructor
  · intro h
    obtain ⟨n, h⟩ := h
    exact hends h
  · rintro rfl
    obtain ⟨n, _, r', h⟩ := exists_ends hround hs
    exact ⟨n, hends h ▸ h⟩

end Loop
