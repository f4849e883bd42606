import Mathlib.Tactic.Common

namespace Transitions

-- Each step meets a condition on the state before it and on the event.
inductive Run {σ ε : Type} (step : σ → ε → σ) (fine : σ → ε → Prop) (start : σ) : σ → Prop where
  | start : Run step fine start start
  | next {s : σ} {e : ε} : Run step fine start s → fine s e → Run step fine start (step s e)

variable {σ ε : Type} {start : σ}

theorem Run.keeps (path : Run step fine start s) (inv : σ → Prop) (holds : inv start)
    (kept : ∀ s e, inv s → fine s e → inv (step s e)) : inv s := by
  induction path with
  | start => exact holds
  | next _ meets ih => exact kept _ _ ih meets

-- For a predicate that every step from one of its states stays in, such as being reached.
theorem run_reach {step : ε → σ → Option σ} {reach : σ → Prop} (next : ∀ {s e t}, reach s → step e s = some t → reach t)
    {events : List ε} (prior : reach s) (ran : events.foldlM (fun s e => step e s) s = some t) : reach t := by
  induction events generalizing s with
  | nil =>
    cases ran
    exact prior
  | cons e rest ih =>
    obtain ⟨_,stepped,ran⟩ := Option.bind_eq_some_iff.mp ran
    exact ih (next prior stepped) ran

end Transitions
