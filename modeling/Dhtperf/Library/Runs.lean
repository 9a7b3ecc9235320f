import Mathlib.Logic.Relation
import Mathlib.Order.WellFounded

/-! Runs of a transition relation: reflexive-transitive closures, the invariant rule, and
runs of a partial step function whose actions have to be allowed. -/
namespace Dhtperf.Library
open Relation

/-- What holds at the start and survives every step holds wherever a run arrives. -/
theorem run_invariant {σ : Type} {step : σ → σ → Prop} {good : σ → Prop} {first last : σ}
    (run : ReflTransGen step first last) (start : good first)
    (preserved : ∀ before after, good before → step before after → good after) : good last := by
  induction run with
  | refl => exact start
  | tail _ next ih => exact preserved _ _ ih next

/-- Steps that keep an invariant and make a measure smaller do not go on for ever. -/
theorem no_endless_run.{u} {σ : Type} {μ : Type u} [LT μ] [WellFoundedLT μ] {step : σ → σ → Prop} {good : σ → Prop}
    (measure : σ → μ) (preserved : ∀ before after, good before → step before after → good after)
    (decreases : ∀ before after, good before → step before after → measure after < measure before)
    (path : Nat → σ) (start : good (path 0)) : ¬∀ n, step (path n) (path (n+1)) := by
  intro steps
  have all : ∀ n, good (path n) := by
    intro n
    induction n with
    | zero => exact start
    | succ n ih => exact preserved _ _ ih (steps n)
  obtain ⟨n,stays⟩ := WellFounded.not_rel_apply_succ (r := (· < ·)) fun n => measure (path n)
  exact stays (decreases _ _ (all n) (steps n))

/-- What the last state fixes holds all the way back, so it can be used to match every step:
a run is seen as a run of something that knows its end from the start. -/
theorem run_foreseen {σ τ : Type} {step : σ → σ → Prop} {abstract : τ → τ → Prop} {good foreseen : σ → Prop}
    (view : σ → τ) {first last : σ} (run : ReflTransGen step first last) (start : good first)
    (preserved : ∀ before after, good before → step before after → good after)
    (back : ∀ before after, step before after → foreseen after → foreseen before)
    (matched : ∀ before after, good before → foreseen before → step before after →
      ReflTransGen abstract (view before) (view after)) (ending : foreseen last) :
    ReflTransGen abstract (view first) (view last) := by
  induction run with
  | refl => exact .refl
  | tail earlier next ih =>
    have known := back _ _ next ending
    exact (ih known).trans (matched _ _ (run_invariant earlier start preserved) known next)

variable {σ α : Type} (act : σ → α → Option σ) (allowed : σ → α → Prop)

/-- A step by an action that a condition on it and the state before allows. -/
def StepIf (before after : σ) : Prop := ∃ action, allowed before action ∧ act before action = some after

variable [∀ s action, Decidable (allowed s action)]

def perform (s : σ) : List α → Option σ
  | [] => some s
  | action :: actions => if allowed s action then (act s action).bind fun after => perform after actions else none

theorem perform_run (actions : List α) (s : σ) (good : σ → Bool)
    (performed : (perform act allowed s actions).any good = true) :
    ∃ after, ReflTransGen (StepIf act allowed) s after ∧ good after = true := by
  induction actions generalizing s with
  | nil => exact ⟨s,.refl,performed⟩
  | cons action actions ih =>
    unfold perform at performed
    split at performed
    next fine =>
      cases acted : act s action with
      | none => simp [acted] at performed
      | some next =>
        rw [acted] at performed
        obtain ⟨after,run,found⟩ := ih next performed
        exact ⟨after,.head ⟨action,fine,acted⟩ run,found⟩
    next => cases performed

end Dhtperf.Library
