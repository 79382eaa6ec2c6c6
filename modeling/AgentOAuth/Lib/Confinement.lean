import AgentOAuth.Lib.Noninterference
import AgentOAuth.Lib.Workload

/-!
# Processes confined to a part of a store

Some of the processes of a workload work in one part of the store, and all
others outside of it.  `Part` says what this takes: calls inside are answered
from the part, and calls outside leave it alone.  Then the processes inside run
as if the others were not there, whatever these do and however the calls of all
are interleaved (`Part.confined`).
-/

namespace Workloads

open Effect Interleaving Noninterference

variable {Op κ δ ε σ α : Type} {Answer : Op → Type}

/-- A part of the store, up to which stores may agree, and the calls and changes
inside and outside of it. -/
structure Part (load : Workload Answer κ δ ε σ α) where
  agree : σ → σ → Prop
  inside : Op → Prop
  outside : Op → Prop
  insideChange : δ → Bool
  outsideChange : δ → Prop
  /-- What can be answered. -/
  expects : (x : Op) → Answer x → Prop
  refl : ∀ s, agree s s
  symm : ∀ {s t}, agree s t → agree t s
  trans : ∀ {s t u}, agree s t → agree t u → agree s u
  expected : ∀ {x s v}, Script.answer load.exec x s = .ok v → expects x v
  answer : ∀ {x s t}, inside x → agree s t →
    Script.answer load.exec x s = Script.answer load.exec x t
  after : ∀ {x s t}, inside x → agree s t →
    agree (Script.after load.exec x s) (Script.after load.exec x t)
  spares : ∀ {x s}, outside x → agree s (Script.after load.exec x s)
  change : ∀ {d s t}, insideChange d = true → agree s t →
    agree (load.environment d s) (load.environment d t)
  sparesChange : ∀ {d s}, outsideChange d → agree s (load.environment d s)

namespace Part

variable {load : Workload Answer κ δ ε σ α} (part : Part load) (mine : ℕ → Bool)

/-- The calls of a process stay on its side. -/
def Confines (i : ℕ) (k : Script Answer ε α) : Prop :=
  k.EveryWhen part.expects (if mine i then part.inside else part.outside)

/-- The event stays on its side. -/
def Sorted : Event δ (Act κ) → Prop
  | .environment d => part.insideChange d = true ∨ part.outsideChange d
  | .act i (.submit job) => part.Confines mine i (load.script job)
  | .act _ .advance => True

/-- The event is of no concern inside the part. -/
def hidden : Event δ (Act κ) → Bool
  | .environment d => !part.insideChange d
  | .act i _ => !mine i

end Part

/-- The workload, event by event; an event that is not possible changes
nothing. -/
def Workload.machine (load : Workload Answer κ δ ε σ α) :
    Machine (Config σ (Process Answer κ ε α)) (Event δ (Act κ)) Unit where
  step c e := ((load.program.system (fun _ => True) .idle).step c e).getD c
  observe _ _ := ()

namespace Part

variable {load : Workload Answer κ δ ε σ α} {part : Part load} {mine : ℕ → Bool}

/-- Everybody stays on his side. -/
def Confined (part : Part load) (mine : ℕ → Bool) (c : Config σ (Process Answer κ ε α)) : Prop :=
  ∀ i job k, c.own i = .running job k → part.Confines mine i k

variable {c d : Config σ (Process Answer κ ε α)} {e : Event δ (Act κ)}

/-- What an event that is possible does to the processes. -/
theorem machine_act {i : ℕ} {act : Act κ} :
    load.machine.step c (.act i act) =
      match load.program.step i c.shared (c.own i) act with
      | some after => ⟨after.1, Function.update c.own i after.2⟩
      | none => c := by
  change (((load.program.step i c.shared (c.own i) act).map fun after =>
    (⟨after.1, Function.update c.own i after.2⟩ : Config σ (Process Answer κ ε α))).getD c) = _
  cases load.program.step i c.shared (c.own i) act <;> rfl

/-- A process stays on its side with what it does. -/
theorem confines_step {i : ℕ} {act : Act κ} (hsorted : part.Sorted mine (.act i act))
    (hc : ∀ job k, c.own i = .running job k → part.Confines mine i k) {s : σ}
    {q : Process Answer κ ε α} (hstep : load.program.step i c.shared (c.own i) act = some (s, q)) :
    ∀ job k, q = .running job k → part.Confines mine i k := by
  rcases Workload.step_eq_some.mp hstep with ⟨job, _, rfl, _, rfl⟩ |
    ⟨job, x, next, hown, rfl, _, rfl⟩
  · rintro _ _ ⟨⟩
    exact hsorted
  · rintro _ _ ⟨⟩
    exact Script.EveryWhen.resume fun v hv => (hc job _ hown).2 v (part.expected hv)

theorem Confined.step (hc : part.Confined mine c) (hsorted : part.Sorted mine e) :
    part.Confined mine (load.machine.step c e) := by
  cases e with
  | environment d => exact hc
  | act i act =>
      rw [machine_act]
      cases hstep : load.program.step i c.shared (c.own i) act with
      | none => exact hc
      | some after =>
          intro j job k hown
          dsimp only at hown
          by_cases hj : j = i
          · subst hj
            rw [Function.update_self] at hown
            exact confines_step hsorted (hc j) hstep job k hown
          · rw [Function.update_of_ne hj] at hown
            exact hc j job k hown

/-- An event outside leaves the part, and the processes in it, alone. -/
theorem Confined.spares (hc : part.Confined mine c) (hsorted : part.Sorted mine e)
    (hhidden : part.hidden mine e = true) :
    part.agree c.shared (load.machine.step c e).shared ∧
      ∀ i, mine i = true → (load.machine.step c e).own i = c.own i := by
  cases e with
  | environment d =>
      have houtside : part.outsideChange d := by
        refine hsorted.resolve_left fun hinside => ?_
        simp [hidden, hinside] at hhidden
      exact ⟨part.sparesChange houtside, fun _ _ => rfl⟩
  | act i act =>
      have hother : mine i = false := by simpa [hidden] using hhidden
      rw [machine_act]
      cases hstep : load.program.step i c.shared (c.own i) act with
      | none => exact ⟨part.refl _, fun _ _ => rfl⟩
      | some after =>
          obtain ⟨s, q⟩ := after
          refine ⟨?_, fun j hj => Function.update_of_ne (fun hji => ?_) _ _⟩
          · -- a submission touches no shared state, a call stays on its own side
            rcases Workload.step_eq_some.mp hstep with ⟨_, _, _, rfl, _⟩ |
              ⟨job, x, next, hown, _, rfl, _⟩
            · exact part.refl _
            · have houtside := (hc i job _ hown).1
              rw [hother, if_neg Bool.false_ne_true] at houtside
              exact part.spares houtside
          · rw [hji, hother] at hj
            cases hj

/-- The two runs cannot be told apart inside the part. -/
structure Alike (part : Part load) (mine : ℕ → Bool) (c d : Config σ (Process Answer κ ε α)) :
    Prop where
  shared : part.agree c.shared d.shared
  own : ∀ i, mine i = true → c.own i = d.own i
  left : part.Confined mine c
  right : part.Confined mine d

/-- An event inside goes the same way in both. -/
theorem Alike.visible (h : part.Alike mine c d) (hsorted : part.Sorted mine e)
    (hvisible : part.hidden mine e = false) :
    part.Alike mine (load.machine.step c e) (load.machine.step d e) := by
  suffices hboth : part.agree (load.machine.step c e).shared (load.machine.step d e).shared ∧
      ∀ i, mine i = true → (load.machine.step c e).own i = (load.machine.step d e).own i from
    ⟨hboth.1, hboth.2, h.left.step hsorted, h.right.step hsorted⟩
  have hleft := h.left
  cases e with
  | environment change =>
      have hinside : part.insideChange change = true := by simpa [hidden] using hvisible
      exact ⟨part.change hinside h.shared, h.own⟩
  | act i act =>
      have hmine : mine i = true := by simpa [hidden] using hvisible
      rw [machine_act, machine_act]
      have hown := h.own i hmine
      cases hp : c.own i with
      | idle =>
          rw [hp] at hown
          rw [← hown]
          cases act with
          | submit job =>
              refine ⟨h.shared, fun j hj => ?_⟩
              by_cases hji : j = i
              · subst hji
                simp [Workload.program]
              · simp [Workload.program, hji, h.own j hj]
          | advance => exact ⟨h.shared, h.own⟩
      | running job k =>
          rw [hp] at hown
          rw [← hown]
          cases k with
          | finish outcome => cases act <;> exact ⟨h.shared, h.own⟩
          | call x next =>
              cases act with
              | submit other => exact ⟨h.shared, h.own⟩
              | advance =>
                  have hinside := (hleft i job _ hp).1
                  rw [if_pos hmine] at hinside
                  -- both runs make the same call on states that agree on this side
                  have hanswer := part.answer hinside h.shared
                  refine ⟨part.after hinside h.shared, fun j hj => ?_⟩
                  by_cases hji : j = i
                  · subst hji
                    simp [Workload.program, hanswer]
                  · simp [Workload.program, hji, h.own j hj]

theorem Alike.spares (h : part.Alike mine c d) (hsorted : part.Sorted mine e)
    (hhidden : part.hidden mine e = true) : part.Alike mine (load.machine.step c e) d := by
  obtain ⟨hshared, hown⟩ := h.left.spares hsorted hhidden
  exact ⟨part.trans (part.symm hshared) h.shared, fun i hi => (hown i hi).trans (h.own i hi),
    h.left.step hsorted, h.right⟩

/-- **Processes in a part run as if the others were not there.** -/
theorem confined (part : Part load) (mine : ℕ → Bool) (hc : part.Confined mine c)
    {events : List (Event δ (Act κ))} (hsorted : ∀ e ∈ events, part.Sorted mine e) :
    part.Alike mine (load.machine.run c events)
      (load.machine.run c (visible (part.hidden mine) events)) := by
  have hvisible : ∀ e ∈ events, part.hidden mine e = false → ∀ c d, part.Alike mine c d →
      part.Alike mine (load.machine.step c e) (load.machine.step d e) ∧
        load.machine.observe c e = load.machine.observe d e :=
    fun e he hshown _ _ h => ⟨h.visible (hsorted e he) hshown, rfl⟩
  have hhidden : ∀ e ∈ events, part.hidden mine e = true → ∀ c d, part.Alike mine c d →
      part.Alike mine (load.machine.step c e) d :=
    fun e he hunseen _ _ h => h.spares (hsorted e he) hunseen
  exact (Machine.purge_of_mem hvisible hhidden ⟨part.refl _, fun _ _ => rfl, hc, hc⟩).1

end Part

end Workloads
