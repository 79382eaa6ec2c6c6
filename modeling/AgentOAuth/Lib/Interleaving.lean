import AgentOAuth.Lib.Transition
import Mathlib.Logic.Function.Basic

/-!
# Processes that share a state

Any number of processes run the same program, each with a local state of its
own, over one shared state; the environment may change the shared state too.
A run interleaves their steps in any order.  A step knows the number of the
process that makes it, so that what it writes can be told apart.

`Invariant` states what has to be checked of one step for an invariant to hold
in every run: that the process that moves keeps it for itself, and that it does
not disturb the others.  The invariant has three parts, on the shared state, on
each local state, and on each pair of local states.
-/

namespace Interleaving

open Transition

variable {σ ℓ ε α : Type*}

/-- The program of a process, and what the environment may do. -/
structure Program (σ ℓ ε α : Type*) where
  step : ℕ → σ → ℓ → α → Option (σ × ℓ)
  environment : σ → ε → Option σ

/-- What the participants share, and what each of them has of its own. -/
structure Config (σ ℓ : Type*) where
  shared : σ
  own : ℕ → ℓ

/-- Either the environment moves, or one participant. -/
inductive Event (ε α : Type*)
  | environment (e : ε)
  | act (i : ℕ) (a : α)

namespace Program

variable (program : Program σ ℓ ε α)

/-- All processes together, from a shared state that meets `init`. -/
def system (init : σ → Prop) (start : ℓ) : System (Config σ ℓ) (Event ε α) where
  init c := init c.shared ∧ ∀ i, c.own i = start
  step c
    | .environment e => (program.environment c.shared e).map fun shared => { c with shared }
    | .act i a => (program.step i c.shared (c.own i) a).map fun after =>
        ⟨after.1, Function.update c.own i after.2⟩

variable {program} {init : σ → Prop} {start : ℓ} {c c' : Config σ ℓ}

/-- A step is the environment's or that of one process. -/
theorem system_step_eq_some {e : Event ε α} :
    (program.system init start).step c e = some c' ↔
      (∃ change shared, e = .environment change ∧
        program.environment c.shared change = some shared ∧ c' = ⟨shared, c.own⟩) ∨
      ∃ i a shared own, e = .act i a ∧ program.step i c.shared (c.own i) a = some (shared, own) ∧
        c' = ⟨shared, Function.update c.own i own⟩ := by
  constructor
  · intro hstep
    cases e with
    | environment change =>
        obtain ⟨shared, hshared, rfl⟩ := Option.map_eq_some_iff.mp hstep
        exact .inl ⟨change, shared, rfl, hshared, rfl⟩
    | act i a =>
        obtain ⟨⟨shared, own⟩, hact, rfl⟩ := Option.map_eq_some_iff.mp hstep
        exact .inr ⟨i, a, shared, own, rfl, hact, rfl⟩
  · rintro (⟨change, shared, rfl, hshared, rfl⟩ | ⟨i, a, shared, own, rfl, hact, rfl⟩)
    · exact Option.map_eq_some_iff.mpr ⟨shared, hshared, rfl⟩
    · exact Option.map_eq_some_iff.mpr ⟨(shared, own), hact, rfl⟩

/-- What one step has to keep: `I` of the shared state, `L` of each local state
against the shared one, and `D` of each pair of local states. -/
structure Invariant (program : Program σ ℓ ε α) (I : σ → Prop) (L : ℕ → σ → ℓ → Prop)
    (D : ℓ → ℓ → Prop) : Prop where
  symm : ∀ {l m}, D l m → D m l
  mover : ∀ {i s l a s' l'}, I s → L i s l → program.step i s l a = some (s', l') → I s' ∧ L i s' l'
  others : ∀ {i j s l m a s' l'}, I s → L i s l → L j s m → i ≠ j → D l m →
    program.step i s l a = some (s', l') → L j s' m ∧ D l' m
  outside : ∀ {s e s'}, I s → program.environment s e = some s' →
    I s' ∧ ∀ i l, L i s l → L i s' l

variable {I : σ → Prop} {L : ℕ → σ → ℓ → Prop} {D : ℓ → ℓ → Prop}

/-- What holds of the shared state, of every process and of every two of them. -/
structure Everywhere (I : σ → Prop) (L : ℕ → σ → ℓ → Prop) (D : ℓ → ℓ → Prop) (c : Config σ ℓ) :
    Prop where
  shared : I c.shared
  each : ∀ i, L i c.shared (c.own i)
  pair : ∀ i j, i ≠ j → D (c.own i) (c.own j)

/-- The step lemma: one step of any process keeps the invariant of all. -/
theorem Invariant.step (h : Invariant program I L D) (hc : Everywhere I L D c) {e : Event ε α}
    (hstep : (program.system init start).step c e = some c') : Everywhere I L D c' := by
  rcases system_step_eq_some.mp hstep with ⟨change, shared, rfl, henv, rfl⟩ |
    ⟨i, a, shared, own, rfl, hact, rfl⟩
  · obtain ⟨hshared, hown⟩ := h.outside hc.shared henv
    exact ⟨hshared, fun j => hown j _ (hc.each j), hc.pair⟩
  · obtain ⟨hshared, hmover⟩ := h.mover hc.shared (hc.each i) hact
    -- one process moves: its own lemma for it, `others` for each of the rest
    have hother : ∀ j, j ≠ i → L j shared (c.own j) ∧ D own (c.own j) := fun j hj =>
      h.others hc.shared (hc.each i) (hc.each j) (Ne.symm hj) (hc.pair i j (Ne.symm hj)) hact
    have hself : Function.update c.own i own i = own := Function.update_self i own c.own
    have hrest : ∀ j, j ≠ i → Function.update c.own i own j = c.own j :=
      fun j hj => Function.update_of_ne hj own c.own
    refine ⟨hshared, fun j => ?_, fun j k hjk => ?_⟩
    · change L j shared (Function.update c.own i own j)
      by_cases hj : j = i
      · subst hj
        rw [hself]
        exact hmover
      · rw [hrest j hj]
        exact (hother j hj).1
    · change D (Function.update c.own i own j) (Function.update c.own i own k)
      by_cases hj : j = i
      · have hk : k ≠ i := fun hk => hjk (hj.trans hk.symm)
        rw [hj, hself, hrest k hk]
        exact (hother k hk).2
      · by_cases hk : k = i
        · rw [hk, hself, hrest j hj]
          exact h.symm (hother j hj).2
        · rw [hrest j hj, hrest k hk]
          exact hc.pair j k hjk

/-- **The run lemma**: in every interleaving the invariant holds everywhere. -/
theorem Invariant.everywhere (h : Invariant program I L D)
    (hinit : ∀ s, init s → I s ∧ ∀ i, L i s start)
    (hstart : D start start) (hc : (program.system init start).Reachable c) :
    Everywhere I L D c := by
  refine hc.invariant ?_ fun c e c' _ ih hstep => h.step ih hstep
  rintro c ⟨hshared, hown⟩
  obtain ⟨hI, hL⟩ := hinit c.shared hshared
  refine ⟨hI, fun i => ?_, fun i j _ => ?_⟩
  · rw [hown i]
    exact hL i
  · rw [hown i, hown j]
    exact hstart

end Program

end Interleaving
