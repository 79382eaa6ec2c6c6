import Mathlib.Tactic.Common

/-!
# Removing hidden inputs from a run

A machine takes inputs one after the other and lets an observer see something
of each.  `Unwinding` is a relation between states that the observer cannot
tell apart: related states answer every input alike and stay related.  If the
hidden inputs of a run do not leave the relation, the run and the run without
them end in related states, and show the observer the same on all the other
inputs (`Unwinding.purge`).
-/

namespace Noninterference

variable {σ ι ω : Type*}

/-- The inputs that are not hidden. -/
def visible (hidden : ι → Bool) (inputs : List ι) : List ι :=
  inputs.filter fun i => !hidden i

/-- A deterministic machine, and what the sender of an input sees of the answer. -/
structure Machine (σ ι ω : Type*) where
  step : σ → ι → σ
  observe : σ → ι → ω

namespace Machine

variable (m : Machine σ ι ω)

/-- The state after all inputs, oldest first. -/
def run (s : σ) (inputs : List ι) : σ :=
  inputs.foldl m.step s

/-- What the observer sees of the inputs that are not hidden. -/
def observations (hidden : ι → Bool) : σ → List ι → List ω
  | _, [] => []
  | s, i :: rest =>
      if hidden i then observations hidden (m.step s i) rest
      else m.observe s i :: observations hidden (m.step s i) rest

/-- The observer cannot tell related states apart, now or later. -/
structure Unwinding (related : σ → σ → Prop) : Prop where
  consistent : ∀ s t i, related s t → related (m.step s i) (m.step t i)
  output : ∀ s t i, related s t → m.observe s i = m.observe t i

variable {m} {related : σ → σ → Prop} {hidden : ι → Bool}

/-- Inputs that are not hidden go alike in related states, and hidden ones do not
leave the relation: then the hidden ones do not show. -/
theorem purge_of_mem {inputs : List ι}
    (hvisible : ∀ i ∈ inputs, hidden i = false → ∀ s t, related s t →
      related (m.step s i) (m.step t i) ∧ m.observe s i = m.observe t i)
    (hhidden : ∀ i ∈ inputs, hidden i = true → ∀ s t, related s t → related (m.step s i) t)
    {s t : σ} (hst : related s t) :
    related (m.run s inputs) (m.run t (visible hidden inputs)) ∧
      m.observations hidden s inputs = m.observations hidden t (visible hidden inputs) := by
  induction inputs generalizing s t with
  | nil => exact ⟨hst, rfl⟩
  | cons i rest ih =>
      have ih := @ih (fun j hj => hvisible j (List.mem_cons_of_mem _ hj))
        (fun j hj => hhidden j (List.mem_cons_of_mem _ hj))
      cases hi : hidden i with
      | true =>
          have hskip : visible hidden (i :: rest) = visible hidden rest := by
            simp [visible, hi]
          rw [hskip, observations, hi, if_pos rfl]
          exact ih (hhidden i List.mem_cons_self hi s t hst)
      | false =>
          have hkeep : visible hidden (i :: rest) = i :: visible hidden rest := by
            simp [visible, hi]
          obtain ⟨hstep, houtput⟩ := hvisible i List.mem_cons_self hi s t hst
          obtain ⟨hrelated, hseen⟩ := ih hstep
          refine ⟨by rw [hkeep]; exact hrelated, ?_⟩
          rw [hkeep, observations, observations, hi, if_neg Bool.false_ne_true,
            if_neg Bool.false_ne_true, houtput, hseen]

/-- **Hidden inputs that stay within the relation do not show.** -/
theorem Unwinding.purge (h : m.Unwinding related) {inputs : List ι}
    (hhidden : ∀ i ∈ inputs, hidden i = true → ∀ s t, related s t → related (m.step s i) t)
    {s t : σ} (hst : related s t) :
    related (m.run s inputs) (m.run t (visible hidden inputs)) ∧
      m.observations hidden s inputs = m.observations hidden t (visible hidden inputs) :=
  purge_of_mem (fun i _ _ s t hst => ⟨h.consistent s t i hst, h.output s t i hst⟩) hhidden hst

end Machine

end Noninterference
