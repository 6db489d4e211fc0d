import Mathlib.Data.List.Basic

/-!
# Reentrant Components

Code that is called from several sides and may be called again while it
waits for a call of its own to return. A component has an environment, which
created it and receives its results, and any number of parts, which it
creates itself. Both may call it, and it may call both.

A method is cut at the places where control leaves it. `enter` runs a method
from its first statement to the next such place and says, as an `Act`, what
happens there; the rest of the method is a program point, and `resume` runs
from a point to the next place. Between the two the state may have been
changed by other calls, which is why `resume` is handed the state anew and
why nothing but the point survives from the first half.

A component does not see the state of others. What it may read of a part
without calling it is the part's view, and it reads the views through a
function that is passed to every run of its code.

## Main definitions

* `Act`: What a piece of code does when it stops.
* `Component`: Methods and program points over one state.
* `Note`: One call across the boundary of a component.
* `tally`: The weight of a log.
-/

namespace RxCppUniq

namespace Theory

variable {C O V ι : Type} {P : ι → Type}

/-- What a piece of code does when it stops. Calls carry the point at which
    the code goes on once they have returned. -/
inductive Act (C O ι K : Type) where
  /-- The method returns to its caller. -/
  | ret
  /-- Go on at another point, with nobody called in between. -/
  | goto (k : K)
  /-- Call the environment. -/
  | out (o : O) (k : K)
  /-- Call the part with number `p`. -/
  | ask (p : Nat) (c : C) (k : K)
  /-- Create a part of kind `i`, which takes the next free number, and call
      it. -/
  | make (i : ι) (c : C) (k : K)
  /-- Give up: a check failed. -/
  | fail (msg : String)

/-- The point at which the code goes on, if it does. -/
@[simp] def Act.next {K : Type} : Act C O ι K → Option K
  | .ret => none
  | .goto k => some k
  | .out _ k => some k
  | .ask _ _ k => some k
  | .make _ _ k => some k
  | .fail _ => none

/-- The point that waits for a call to return. -/
@[simp] def Act.waits {K : Type} : Act C O ι K → Option K
  | .ret => none
  | .goto _ => none
  | .out _ k => some k
  | .ask _ _ k => some k
  | .make _ _ k => some k
  | .fail _ => none

/-- The methods of a component and the program points between the pieces of
    their code. The first argument of each is the views of the parts. -/
structure Component (C O V ι : Type) (P : ι → Type) where
  State : Type
  Point : Type
  start : State
  /-- The environment calls the component. -/
  call : (Nat → V) → State → C → State × Act C O ι Point
  /-- The part `p`, which is of kind `i`, calls the component. -/
  said : (Nat → V) → State → Nat → (i : ι) → P i → State × Act C O ι Point
  /-- A call made by the component has returned. -/
  resume : (Nat → V) → State → Point → State × Act C O ι Point
  /-- What others may read of the component without calling it. -/
  look : State → V

/-- One call across the boundary of a component. -/
inductive Note (C O : Type) (ι : Type) (P : ι → Type) where
  | call (c : C)
  | out (o : O)
  | ask (p : Nat) (c : C)
  | said (p : Nat) (i : ι) (o : P i)

/-- The kinds of the parts after an act. -/
@[simp] def Act.kinds {K : Type} (kinds : List ι) : Act C O ι K → List ι
  | .ret => kinds
  | .goto _ => kinds
  | .out _ _ => kinds
  | .ask _ _ _ => kinds
  | .make i _ _ => kinds ++ [i]
  | .fail _ => kinds

/-- The log after an act. -/
@[simp] def Act.log {K : Type} (kinds : List ι) (log : List (Note C O ι P)) :
    Act C O ι K → List (Note C O ι P)
  | .ret => log
  | .goto _ => log
  | .out o _ => .out o :: log
  | .ask p c _ => .ask p c :: log
  | .make _ c _ => .ask kinds.length c :: log
  | .fail _ => log

/-- The weight of a log: the sum of the weights of its entries. Counts of
    calls and totals of what was passed in them are tallies. -/
def tally {N : Type} (w : N → Nat) : List N → Nat
  | [] => 0
  | n :: log => tally w log + w n

@[simp] theorem tally_nil {N : Type} (w : N → Nat) : tally w [] = 0 := rfl

@[simp] theorem tally_cons {N : Type} (w : N → Nat) (n : N) (log : List N) :
    tally w (n :: log) = tally w log + w n := rfl

end Theory

end RxCppUniq
