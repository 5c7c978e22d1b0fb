import Mathlib.Algebra.Ring.Nat
import Mathlib.Data.List.Basic

/-!
# Labelled runs

A system is a step relation between states, labelled by events.  A run keeps
the events it took, oldest first, so that a property may speak of the whole
history as well as of the state reached.  Invariants, guarded runs and
simulations are each proved by one induction here; a concrete system only
supplies the argument for a single step.
-/

namespace EzRouter.Foundation

variable {σ τ ε : Type*}

inductive Run (step : σ → ε → σ → Prop) (start : σ) : List ε → σ → Prop where
  | refl : Run step start [] start
  | next {trace : List ε} {s t : σ} {event : ε} :
      Run step start trace s → step s event t →
        Run step start (trace ++ [event]) t

def Guarded (step : σ → ε → σ → Prop) (guard : σ → ε → Prop) :
    σ → ε → σ → Prop :=
  fun s event t => step s event t ∧ guard s event

namespace Run

variable {step : σ → ε → σ → Prop} {start s : σ} {trace : List ε}

theorem invariant_trace {inv : List ε → σ → Prop} (base : inv [] start)
    (preserved : ∀ trace s event t, inv trace s → step s event t →
      inv (trace ++ [event]) t)
    (run : Run step start trace s) : inv trace s := by
  induction run with
  | refl => exact base
  | next _ hstep ih => exact preserved _ _ _ _ ih hstep

theorem invariant {inv : σ → Prop} (base : inv start)
    (preserved : ∀ s event t, inv s → step s event t → inv t)
    (run : Run step start trace s) : inv s :=
  invariant_trace base (fun _ s event t => preserved s event t) run

theorem mono {step' : σ → ε → σ → Prop}
    (weaken : ∀ s event t, step s event t → step' s event t)
    (run : Run step start trace s) : Run step' start trace s := by
  induction run with
  | refl => exact .refl
  | next _ hstep ih => exact .next ih (weaken _ _ _ hstep)

theorem of_guarded {guard : σ → ε → Prop}
    (run : Run (Guarded step guard) start trace s) : Run step start trace s :=
  run.mono fun _ _ _ h => h.1

theorem trans {trace' : List ε} {t : σ} (first : Run step start trace s)
    (second : Run step s trace' t) : Run step start (trace ++ trace') t := by
  induction second with
  | refl => simpa using first
  | next _ hstep ih => simpa [List.append_assoc] using Run.next ih hstep

theorem simulation {stepA : τ → ε → τ → Prop} {rel : σ → τ → Prop}
    {startA : τ} (base : rel start startA)
    (simulate : ∀ s a event t, rel s a → step s event t →
      ∃ b, stepA a event b ∧ rel t b)
    (run : Run step start trace s) :
    ∃ a, Run stepA startA trace a ∧ rel s a := by
  induction run with
  | refl => exact ⟨startA, .refl, base⟩
  | next _ hstep ih =>
      obtain ⟨a, runA, hrel⟩ := ih
      obtain ⟨b, hstepA, hrel'⟩ := simulate _ _ _ _ hrel hstep
      exact ⟨b, .next runA hstepA, hrel'⟩

/-- A run of a composed system, seen from one of its components: the events
that concern the component are a run of it, the others leave it alone. -/
theorem project {ε' : Type*} {stepA : τ → ε' → τ → Prop} (view : σ → τ)
    (label : ε → Option ε')
    (moves : ∀ s event t e, step s event t → label event = some e →
      stepA (view s) e (view t))
    (stays : ∀ s event t, step s event t → label event = none →
      view t = view s)
    (run : Run step start trace s) :
    Run stepA (view start) (trace.filterMap label) (view s) := by
  induction run with
  | refl => exact .refl
  | @next trace s t event _ hstep ih =>
      rw [List.filterMap_append]
      cases hlabel : label event with
      | none =>
          rw [stays _ _ _ hstep hlabel, List.filterMap_cons_none hlabel,
            List.filterMap_nil, List.append_nil]
          exact ih
      | some e =>
          rw [List.filterMap_cons_some hlabel, List.filterMap_nil]
          exact .next ih (moves _ _ _ _ hstep hlabel)

theorem reaches (inv goal : σ → Prop) (rank : σ → Nat)
    (advance : ∀ s, inv s → ¬ goal s →
      ∃ event t, step s event t ∧ inv t ∧ rank t < rank s)
    {s : σ} (hinv : inv s) : ∃ trace t, Run step s trace t ∧ goal t := by
  induction hrank : rank s using Nat.strongRecOn generalizing s with
  | ind n ih =>
      by_cases hgoal : goal s
      · exact ⟨[], s, .refl, hgoal⟩
      · rcases advance s hinv hgoal with ⟨event, t, hstep, ht, hlt⟩
        rcases ih (rank t) (hrank ▸ hlt) ht rfl with ⟨trace, u, hrun, hu⟩
        exact ⟨[event] ++ trace, u, (Run.next .refl hstep).trans hrun, hu⟩

theorem cost_le {inv : σ → Prop} (rank : σ → Nat) (cost : ε → Nat)
    (preserved : ∀ s event t, inv s → step s event t → inv t)
    (pays : ∀ s event t, inv s → step s event t →
      cost event + rank t ≤ rank s)
    (hinv : inv start) (run : Run step start trace s) :
    (trace.map cost).sum + rank s ≤ rank start := by
  induction run with
  | refl => simp
  | next hrun hstep ih =>
      have hpays := pays _ _ _ (hrun.invariant hinv preserved) hstep
      rw [List.map_append, List.sum_append, List.map_singleton,
        List.sum_singleton]
      omega

/-- A property that is never regained holds at the end of a run exactly when
every step of the run meets the condition under which that step keeps it. -/
theorem keeps_iff_guarded {guard : σ → ε → Prop} (good inv : σ → Prop)
    (hinv : inv start) (hgood : good start)
    (preserved : ∀ s event t, inv s → step s event t → inv t)
    (keeps : ∀ s event t, inv s → step s event t →
      (good t ↔ good s ∧ guard s event))
    (run : Run step start trace s) :
    good s ↔ Run (Guarded step guard) start trace s := by
  constructor
  · intro hend
    induction run with
    | refl => exact .refl
    | next hrun hstep ih =>
        have hinv' := hrun.invariant hinv preserved
        obtain ⟨hbefore, hguard⟩ := (keeps _ _ _ hinv' hstep).1 hend
        exact .next (ih hbefore) ⟨hstep, hguard⟩
  · intro hguarded
    have hboth : inv s ∧ good s := by
      apply hguarded.invariant ⟨hinv, hgood⟩
      rintro s event t ⟨hinv', hgood'⟩ ⟨hstep, hguard⟩
      exact ⟨preserved _ _ _ hinv' hstep,
        (keeps _ _ _ hinv' hstep).2 ⟨hgood', hguard⟩⟩
    exact hboth.2

end Run

theorem foldl_keeps_iff {step : σ → ε → σ} (good inv : σ → Prop)
    {guard : σ → ε → Prop} (preserved : ∀ s event, inv s → inv (step s event))
    (keeps : ∀ s event, inv s →
      (good (step s event) ↔ good s ∧ guard s event))
    {s : σ} (hinv : inv s) (events : List ε) :
    good (events.foldl step s) ↔
      good s ∧ ∀ before event after, events = before ++ event :: after →
        guard (before.foldl step s) event := by
  induction events generalizing s with
  | nil => simp
  | cons head events ih =>
      rw [List.foldl_cons, ih (preserved _ _ hinv), keeps _ _ hinv, and_assoc]
      refine and_congr_right fun _ => ?_
      constructor
      · rintro ⟨hhead, htail⟩ before event after hsplit
        cases before with
        | nil =>
            obtain ⟨rfl, -⟩ := List.cons.inj hsplit
            exact hhead
        | cons e before =>
            obtain ⟨rfl, hrest⟩ := List.cons.inj hsplit
            exact htail before event after hrest
      · intro hall
        refine ⟨hall [] head events rfl, ?_⟩
        intro before event after hsplit
        exact hall (head :: before) event after (by simp [hsplit])

end EzRouter.Foundation
