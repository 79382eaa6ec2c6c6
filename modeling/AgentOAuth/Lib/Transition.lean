import Mathlib.Logic.Relation
import Mathlib.Order.Basic
import Mathlib.Tactic.Common

/-!
# Guarded transition systems

A system is a set of initial states and an executable step function that
refuses an event by returning `none`.  Everything the development says about
"every run, in any order" is a statement about `System.Reachable`, and
`Reachable.invariant` is the one induction behind all of them.

`System.restrict` keeps only the steps that meet a condition on the state
*before* the step and on the event.  Runs whose steps all meet a condition are
the reachable states of the restricted system, so conditional results need no
induction of their own.
-/

namespace Transition

/-- Initial states and a guarded, executable step function. -/
structure System (σ ε : Type*) where
  init : σ → Prop
  step : σ → ε → Option σ

namespace System

variable {σ ε : Type*} (sys : System σ ε)

/-- The states reached by finitely many events, in any order. -/
inductive Reachable : σ → Prop
  | init {s : σ} : sys.init s → Reachable s
  | step {s t : σ} (e : ε) : Reachable s → sys.step s e = some t → Reachable t

/-- A run, with the state before each of its events, newest first. -/
inductive Run : List (σ × ε) → σ → Prop
  | init {s : σ} : sys.init s → Run [] s
  | step {past : List (σ × ε)} {s t : σ} (e : ε) : Run past s → sys.step s e = some t →
      Run ((s, e) :: past) t

variable {sys} in
theorem Run.reachable {past : List (σ × ε)} {s : σ} (h : sys.Run past s) : sys.Reachable s := by
  induction h with
  | init hs => exact .init hs
  | step e _ hstep ih => exact ih.step e hstep

variable {sys} in
/-- Every state of a run is reachable. -/
theorem Run.reachable_of_mem {past : List (σ × ε)} {s : σ} (h : sys.Run past s) {t : σ} {e : ε}
    (hmem : (t, e) ∈ past) : sys.Reachable t := by
  induction h with
  | init _ => cases hmem
  | step e' hrun _ ih =>
      rcases List.mem_cons.mp hmem with heq | hmem
      · obtain ⟨rfl, rfl⟩ := Prod.mk.inj heq
        exact hrun.reachable
      · exact ih hmem

variable {sys} in
/-- Every reachable state is where some run ends. -/
theorem Reachable.exists_run {s : σ} (h : sys.Reachable s) : ∃ past, sys.Run past s := by
  induction h with
  | init hs => exact ⟨[], .init hs⟩
  | step e _ hstep ih =>
      obtain ⟨past, hrun⟩ := ih
      exact ⟨_, .step e hrun hstep⟩

open Classical in
/-- The same system with only the steps that meet `allowed`. -/
noncomputable def restrict (allowed : σ → ε → Prop) : System σ ε where
  init := sys.init
  step s e := if allowed s e then sys.step s e else none

/-- Replay a list of events, oldest first; `none` if one of them is refused. -/
def replay (s : σ) (events : List ε) : Option σ :=
  events.foldlM sys.step s

variable {sys} {allowed stricter : σ → ε → Prop}

theorem restrict_step_eq_some {s t : σ} {e : ε} :
    (sys.restrict allowed).step s e = some t ↔ allowed s e ∧ sys.step s e = some t := by
  simp only [restrict]
  split <;> simp_all

/-- An invariant that holds initially and is preserved by the steps from
reachable states holds in every reachable state. -/
theorem Reachable.invariant {P : σ → Prop} (hinit : ∀ s, sys.init s → P s)
    (hstep : ∀ s e t, sys.Reachable s → P s → sys.step s e = some t → P t) {s : σ}
    (h : sys.Reachable s) : P s := by
  induction h with
  | init hs => exact hinit _ hs
  | step e hs hse ih => exact hstep _ e _ hs ih hse

/-- A run of the restricted system is a run of the system. -/
theorem Reachable.of_restrict {s : σ} (h : (sys.restrict allowed).Reachable s) :
    sys.Reachable s := by
  induction h with
  | init hs => exact .init hs
  | step e _ hse ih => exact ih.step e (restrict_step_eq_some.mp hse).2

/-- A condition that always holds restricts nothing. -/
theorem Reachable.restrict_of_forall (hallowed : ∀ s e, allowed s e) {s : σ}
    (h : sys.Reachable s) : (sys.restrict allowed).Reachable s := by
  induction h with
  | init hs => exact .init hs
  | step e _ hse ih => exact ih.step e (restrict_step_eq_some.mpr ⟨hallowed _ _, hse⟩)

/-- A stricter condition leaves fewer runs. -/
theorem Reachable.restrict_mono (hstricter : ∀ s e, stricter s e → allowed s e) {s : σ}
    (h : (sys.restrict stricter).Reachable s) : (sys.restrict allowed).Reachable s := by
  induction h with
  | init hs => exact .init hs
  | step e _ hse ih =>
      obtain ⟨hallowed, hstep⟩ := restrict_step_eq_some.mp hse
      exact ih.step e (restrict_step_eq_some.mpr ⟨hstricter _ _ hallowed, hstep⟩)

/-- `Reachable.invariant` for a restricted system, with the condition at hand. -/
theorem Reachable.invariant_of_restrict {P : σ → Prop} (hinit : ∀ s, sys.init s → P s)
    (hstep : ∀ s e t, sys.Reachable s → P s → allowed s e → sys.step s e = some t → P t) {s : σ}
    (h : (sys.restrict allowed).Reachable s) : P s := by
  have hrestricted : ∀ s, (sys.restrict allowed).init s → P s := hinit
  refine h.invariant hrestricted fun s e t hs hP hse => ?_
  obtain ⟨hallowed, hstep'⟩ := restrict_step_eq_some.mp hse
  exact hstep s e t hs.of_restrict hP hallowed hstep'

/-- What the events of a list preserve, their replay preserves. -/
theorem replay_invariant {P : σ → Prop} {events : List ε}
    (hstep : ∀ s, ∀ e ∈ events, ∀ t, P s → sys.step s e = some t → P t) {s t : σ} (hs : P s)
    (h : sys.replay s events = some t) : P t := by
  induction events generalizing s with
  | nil =>
      obtain rfl : s = t := by simpa [System.replay] using h
      exact hs
  | cons e rest ih =>
      simp only [System.replay, List.foldlM_cons, Option.bind_eq_bind,
        Option.bind_eq_some_iff] at h
      obtain ⟨u, hu, hrest⟩ := h
      exact ih (fun s' e' he' => hstep s' e' (List.mem_cons_of_mem _ he'))
        (hstep s e List.mem_cons_self u hs hu) hrest

/-- A replay prolongs a run by its events. -/
theorem Run.replay {past : List (σ × ε)} {s t : σ} (hs : sys.Run past s) {events : List ε}
    (h : sys.replay s events = some t) :
    ∃ recent, sys.Run (recent ++ past) t ∧ recent.map Prod.snd = events.reverse := by
  induction events generalizing past s with
  | nil =>
      obtain rfl : s = t := by simpa [System.replay] using h
      exact ⟨[], hs, rfl⟩
  | cons e rest ih =>
      simp only [System.replay, List.foldlM_cons, Option.bind_eq_bind,
        Option.bind_eq_some_iff] at h
      obtain ⟨u, hu, hrest⟩ := h
      obtain ⟨recent, hrun, hevents⟩ := ih (hs.step e hu) hrest
      refine ⟨recent ++ [(s, e)], ?_, ?_⟩
      · rw [List.append_assoc, List.singleton_append]
        exact hrun
      · rw [List.map_append, hevents, List.reverse_cons]
        rfl

/-- Replaying events from a reachable state stays among the reachable states. -/
theorem Reachable.replay {s t : σ} (hs : sys.Reachable s) {events : List ε}
    (h : sys.replay s events = some t) : sys.Reachable t :=
  replay_invariant (P := sys.Reachable) (fun _ e _ _ hs hstep => hs.step e hstep) hs h

/-- What every step from a reachable state only lets grow, a whole replay lets
grow. -/
theorem Reachable.replay_mono {R : σ → σ → Prop} (hrefl : ∀ s, R s s)
    (htrans : ∀ s t u, R s t → R t u → R s u)
    (hstep : ∀ s e t, sys.Reachable s → sys.step s e = some t → R s t) {s t : σ}
    (hs : sys.Reachable s) {events : List ε} (h : sys.replay s events = some t) : R s t := by
  have hgrown : sys.Reachable t ∧ R s t :=
    replay_invariant (P := fun u => sys.Reachable u ∧ R s u)
      (fun u e _ v hu huv => ⟨hu.1.step e huv, htrans s u v hu.2 (hstep u e v hu.1 huv)⟩)
      ⟨hs, hrefl s⟩ h
  exact hgrown.2

/-- Every event of a replay, taken where it happens, meets `allowed`. -/
def Complies (sys : System σ ε) (allowed : σ → ε → Prop) : σ → List ε → Prop
  | _, [] => True
  | s, e :: rest => allowed s e ∧ ∀ t, sys.step s e = some t → Complies sys allowed t rest

/-- What the events of a list preserve, and what makes each of them allowed. -/
theorem complies_of_invariant {P : σ → Prop} {events : List ε}
    (hstep : ∀ s, ∀ e ∈ events, ∀ t, P s → sys.step s e = some t → P t)
    (hallowed : ∀ s, ∀ e ∈ events, P s → allowed s e) {s : σ} (hs : P s) :
    sys.Complies allowed s events := by
  induction events generalizing s with
  | nil => trivial
  | cons e rest ih =>
      refine ⟨hallowed s e List.mem_cons_self hs, fun t ht => ih ?_ ?_ ?_⟩
      · exact fun s' e' he' => hstep s' e' (List.mem_cons_of_mem _ he')
      · exact fun s' e' he' => hallowed s' e' (List.mem_cons_of_mem _ he')
      · exact hstep s e List.mem_cons_self t hs ht

/-- What a part of the state becomes under each allowed event, it becomes over
a replay of allowed events. -/
theorem replay_view {β : Type*} {view : σ → β} {next : β → ε → β}
    (hstep : ∀ s e t, allowed s e → sys.step s e = some t → view t = next (view s) e) {s t : σ}
    {events : List ε} (h : sys.replay s events = some t)
    (hallowed : sys.Complies allowed s events) :
    view t = events.foldl next (view s) := by
  induction events generalizing s with
  | nil =>
      obtain rfl : s = t := by simpa [System.replay] using h
      rfl
  | cons e rest ih =>
      simp only [System.replay, List.foldlM_cons, Option.bind_eq_bind,
        Option.bind_eq_some_iff] at h
      obtain ⟨u, hu, hrest⟩ := h
      rw [List.foldl_cons, ← hstep s e u hallowed.1 hu]
      exact ih hrest (hallowed.2 u hu)

/-- A replay whose events all meet the condition is a run of the restricted
system. -/
theorem Reachable.replay_restrict {s t : σ} (hs : (sys.restrict allowed).Reachable s)
    {events : List ε} (h : sys.replay s events = some t)
    (hallowed : sys.Complies allowed s events) : (sys.restrict allowed).Reachable t := by
  induction events generalizing s with
  | nil =>
      obtain rfl : s = t := by simpa [System.replay] using h
      exact hs
  | cons e rest ih =>
      simp only [System.replay, List.foldlM_cons, Option.bind_eq_bind,
        Option.bind_eq_some_iff] at h
      obtain ⟨u, hu, hrest⟩ := h
      exact ih (hs.step e (restrict_step_eq_some.mpr ⟨hallowed.1, hu⟩)) hrest (hallowed.2 u hu)

end System

/-! ## What a run can end with

`may s r` says, without running anything, that what starts in `s` may end with
`r`.  It is right when steps carry it backwards, and when some step carries it
forwards until the end. -/

open Relation

variable {σ ρ : Type*} {step : σ → σ → Prop} {final may : σ → ρ → Prop} {P : σ → Prop} {r : ρ}

theorem may_of_run (hfinal : ∀ s r, final s r → may s r)
    (hback : ∀ s t r, step s t → may t r → may s r) {s t : σ} (h : ReflTransGen step s t)
    (ht : final t r) : may s r := by
  induction h using ReflTransGen.head_induction_on with
  | refl => exact hfinal t r ht
  | head hstep _ ih => exact hback _ _ r hstep ih

theorem exists_run_of_may {rank : σ → ℕ}
    (hforth : ∀ s r, P s → may s r →
      final s r ∨ ∃ t, step s t ∧ P t ∧ may t r ∧ rank t < rank s)
    {s : σ} (hs : P s) (h : may s r) : ∃ t, ReflTransGen step s t ∧ final t r := by
  induction hrank : rank s using Nat.strongRecOn generalizing s with
  | ind n ih =>
      rcases hforth s r hs h with hfinal | ⟨t, hstep, ht, hmay, hlt⟩
      · exact ⟨s, .refl, hfinal⟩
      · obtain ⟨u, hrun, hu⟩ := ih (rank t) (hrank ▸ hlt) ht hmay rfl
        exact ⟨u, .head hstep hrun, hu⟩

end Transition
