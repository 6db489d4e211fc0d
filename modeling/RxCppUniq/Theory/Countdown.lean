import Mathlib.Logic.Basic

/-!
# Runs that Count Down

A system of which each step takes one off a number, and that has a step as
long as the number is not zero. It need not be said which step is taken: all
runs are equally long, none gets stuck on the way, and none goes on for ever.

## Main definitions

* `Steps`: The runs of so many steps.
* `Countdown`: The rules for one step, under an invariant.

## Theorems

* `Countdown.run`: What is left after some steps.
* `Countdown.continues`: A run that is too short is not at its end.
-/

namespace RxCppUniq.Theory

variable {S : Type}

/-- The runs of so many steps. -/
inductive Steps (Step : S → S → Prop) (s : S) : Nat → S → Prop where
  | none : Steps Step s 0 s
  | step (k : Nat) (t u : S) (run : Steps Step s k t) (last : Step t u) : Steps Step s (k + 1) u

/-- Each step takes one off what is left, and there is a step while something
    is left. -/
structure Countdown (Step : S → S → Prop) (Inv : S → Prop) (left : S → Nat) : Prop where
  keeps : ∀ s t, Inv s → Step s t → Inv t
  lowers : ∀ s t, Inv s → Step s t → left t + 1 = left s
  moves : ∀ s, Inv s → left s ≠ 0 → ∃ t, Step s t

namespace Countdown

variable {Step : S → S → Prop} {Inv : S → Prop} {left : S → Nat}

/-- What is left after some steps. -/
theorem run (h : Countdown Step Inv left) (s t : S) (k : Nat) (hs : Inv s)
    (hrun : Steps Step s k t) : Inv t ∧ left t + k = left s := by
  induction hrun with
  | none => exact ⟨hs, Nat.add_zero _⟩
  | step k t u _ last ih =>
      rcases ih with ⟨ht, hleft⟩
      have hlower := h.lowers t u ht last
      exact ⟨h.keeps t u ht last, by omega⟩

/-- A run that is too short is not at its end. -/
theorem continues (h : Countdown Step Inv left) (s t : S) (k : Nat) (hs : Inv s)
    (hrun : Steps Step s k t) (hshort : k < left s) : ∃ u, Step t u := by
  rcases h.run s t k hs hrun with ⟨ht, hleft⟩
  exact h.moves t ht (by omega)

end Countdown

end RxCppUniq.Theory
