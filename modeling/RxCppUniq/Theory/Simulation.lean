import RxCppUniq.Theory.Nest

/-!
# Simulation of Machines

One machine stands for another if it answers every call in the same way: it
returns where the other does, and calls the environment where the other does,
with the same argument. How many steps of its own it takes until then does not
matter. A simulation is a relation between the states of two machines and the
points at which their calls of the environment return.

What the environment may do depends on how far the machine has got, which is
told from the calls it has made. From some stage on a machine may give up: then
it is not compared any more.

## Main definitions

* `Machine.Runs`: A machine goes on until it returns or calls.
* `Protocol`: What the environment may do at each stage.
* `Match`: Two machines do the same.
* `Simulation`: One machine stands for another.

## Theorems

* `Machine.Runs.unique`: What a machine does is determined.
* `Answers.of_runs`: What a machine does is what the other one does.
-/

namespace RxCppUniq

namespace Theory

variable {C O V : Type} {Q : Empty → Type} [Inhabited V]

/-- The code goes on at another point. -/
@[simp] def Act.isGoto {ι K : Type} : Act C O ι K → Bool
  | .ret => false
  | .goto _ => true
  | .out _ _ => false
  | .ask _ _ _ => false
  | .make _ _ _ => false
  | .fail _ => false

namespace Machine

/-- What a piece of code of a machine has led to. -/
abbrev Outcome (A : Machine C O V Q) := A.State × Act C O Empty A.Point

/-- The machine goes on until it returns, calls or gives up. -/
inductive Runs (A : Machine C O V Q) : Outcome A → Outcome A → Prop where
  | stop (r : Outcome A) (h : r.2.isGoto = false) : Runs A r r
  | go (s : A.State) (k : A.Point) (v : Outcome A) (h : Runs A (A.resume noViews s k) v) :
      Runs A (s, .goto k) v

namespace Runs

variable {A : Machine C O V Q}

/-- What is done at once. -/
theorem eq_of_stop {r v : Outcome A} (h : Runs A r v) (hstop : r.2.isGoto = false) : v = r := by
  cases h with
  | stop r _ => rfl
  | go s k v _ => cases hstop

theorem of_goto {s : A.State} {k : A.Point} {v : Outcome A} (h : Runs A (s, .goto k) v) :
    Runs A (A.resume noViews s k) v := by
  cases h with
  | stop r hstop => cases hstop
  | go s k v h => exact h

/-- What a machine does is determined. -/
theorem unique {r v v' : Outcome A} (h : Runs A r v) (h' : Runs A r v') : v = v' := by
  induction h with
  | stop r hstop => exact (h'.eq_of_stop hstop).symm
  | go s k v _ ih => exact ih h'.of_goto

end Runs

end Machine

open Machine

/-- What the environment of a machine may do. The machine is at a stage, which
    its calls of the environment decide. -/
structure Protocol (C O : Type) where
  Stage : Type
  start : Stage
  allow : Stage → C → Prop
  after : Stage → O → Stage
  /-- The machine may give up. -/
  broken : Stage → Prop

/-- Two machines have done the same. -/
inductive Match (proto : Protocol C O) {A B : Machine C O V Q}
    (Rel : proto.Stage → A.State → B.State → List (A.Point × B.Point) → Prop)
    (q : proto.Stage) (ks : List (A.Point × B.Point)) : Outcome A → Outcome B → Prop where
  | ret (a : A.State) (b : B.State) (h : Rel q a b ks) : Match proto Rel q ks (a, .ret) (b, .ret)
  | out (a : A.State) (b : B.State) (o : O) (k : A.Point) (l : B.Point)
      (h : Rel (proto.after q o) a b ((k, l) :: ks)) :
      Match proto Rel q ks (a, .out o k) (b, .out o l)
  | fail (a : A.State) (msg : String) (v : Outcome B) (h : proto.broken q) :
      Match proto Rel q ks (a, .fail msg) v

/-- Two machines are made to do the same. -/
def Answers (proto : Protocol C O) {A B : Machine C O V Q}
    (Rel : proto.Stage → A.State → B.State → List (A.Point × B.Point) → Prop)
    (q : proto.Stage) (ks : List (A.Point × B.Point)) (r : Outcome A) (r' : Outcome B) : Prop :=
  ∃ v v', Runs A r v ∧ Runs B r' v' ∧ Match proto Rel q ks v v'

/-- The machine `A` stands for the machine `B`. -/
structure Simulation (gate : V → C → Option String) (proto : Protocol C O)
    (A B : Machine C O V Q) where
  Rel : proto.Stage → A.State → B.State → List (A.Point × B.Point) → Prop
  start : Rel proto.start A.start B.start []
  look : ∀ q a b ks, Rel q a b ks → A.look a = B.look b
  call : ∀ q a b ks c, Rel q a b ks → proto.allow q c → gate (A.look a) c = none →
    Answers proto Rel q ks (A.call noViews a c) (B.call noViews b c)
  resume : ∀ q a b k l ks, Rel q a b ((k, l) :: ks) →
    Answers proto Rel q ks (A.resume noViews a k) (B.resume noViews b l)

/-- What `A` does is what `B` does, unless `A` gives up. -/
theorem Answers.of_runs {proto : Protocol C O} {A B : Machine C O V Q}
    {Rel : proto.Stage → A.State → B.State → List (A.Point × B.Point) → Prop}
    {q : proto.Stage} {ks : List (A.Point × B.Point)} {r : Outcome A} {r' v' : Outcome B}
    (h : Answers proto Rel q ks r r') (hv' : Runs B r' v') :
    ∃ v, Runs A r v ∧ Match proto Rel q ks v v' := by
  rcases h with ⟨v, w, hv, hw, hmatch⟩
  rw [hw.unique hv'] at hmatch
  exact ⟨v, hv, hmatch⟩

end Theory

end RxCppUniq
