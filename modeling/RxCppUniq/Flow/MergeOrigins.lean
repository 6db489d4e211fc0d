import RxCppUniq.Flow.MergeShutdown
import RxCppUniq.Flow.MergeStrict

/-!
# Where the Values of Merge come from

Which upstream a value that `MergeStream` delivers was taken from can be read
off the log. When a value is taken the upstream is asked for the next event,
so the calls of `Request`, apart from the first one of each upstream, are a
list of where the delivered values come from.

## Main definitions

* `valuesOf`: The values among some events.
* `MergeStream.origins`: The upstreams values were taken from, in order.
* `MergeStream.cameFrom`: The delivered values that came from an upstream.

## Theorems

* `MergeStream.originating_concat`: One more value with its origin.
-/

namespace RxCppUniq

open Theory

/-- The values among some events. -/
def valuesOf {V : Type} (events : List (StatusOr V)) : List V :=
  events.filterMap fun
    | .value v => some v
    | .status _ _ => none

@[simp] theorem valuesOf_nil {V : Type} : valuesOf ([] : List (StatusOr V)) = [] := rfl

@[simp] theorem valuesOf_append {V : Type} (l l' : List (StatusOr V)) :
    valuesOf (l ++ l') = valuesOf l ++ valuesOf l' :=
  List.filterMap_append

theorem valuesOf_value {V : Type} (v : V) : valuesOf [.value v] = [v] := rfl

/-- There is no value in an end. -/
theorem valuesOf_end {V : Type} (e : StatusOr V) (h : e.isEnd = true) : valuesOf [e] = [] := by
  cases e with
  | value v => exact absurd h Bool.false_ne_true
  | status s hs => rfl

theorem length_valuesOf {V : Type} (l : List (StatusOr V)) : (valuesOf l).length = values l := by
  induction l with
  | nil => rfl
  | cons e l ih =>
      rw [← List.singleton_append, valuesOf_append, List.length_append, ih, values_append,
        values_singleton]
      cases e with
      | value v => rfl
      | status s hs =>
          rw [StatusOr.isEnd_status, if_pos rfl]
          rfl

namespace MergeStream

variable {ι : Type} {T : ι → Type}

section Log

/-- The upstream a value is taken from in a call: one that is asked again. -/
@[simp] def takenIn (log : Log (Sigma T) ι T) : Entry (Sigma T) ι T → Option Nat
  | .call _ => none
  | .out _ => none
  | .ask p c => match c with
    | .subscribe => none
    | .request _ => if 0 < tokens p log then some p else none
    | .cancel => none
  | .said _ _ _ => none

/-- The upstreams values were taken from, in order. -/
def origins : Log (Sigma T) ι T → List Nat
  | [] => []
  | n :: log => origins log ++ (takenIn log n).toList

@[simp] theorem origins_nil : origins ([] : Log (Sigma T) ι T) = [] := rfl

@[simp] theorem origins_cons (n : Entry (Sigma T) ι T) (log : Log (Sigma T) ι T) :
    origins (n :: log) = origins log ++ (takenIn log n).toList := rfl

/-- The values with a given origin, where `from_` says where each comes
    from. -/
def originating {V : Type} (p : Nat) (vs : List V) (from_ : List Nat) : List V :=
  (vs.zip from_).filterMap fun x => if x.2 = p then some x.1 else none

/-- The values that were delivered and came from the upstream at position
    `p`, in order. -/
def cameFrom (p : Nat) (log : Log (Sigma T) ι T) : List (Sigma T) :=
  originating p (valuesOf (received log)) (origins log)

/-- One more value with its origin. -/
theorem originating_concat {V : Type} (p q : Nat) (vs : List V) (v : V) (from_ : List Nat)
    (h : vs.length = from_.length) :
    originating p (vs ++ [v]) (from_ ++ [q]) =
      originating p vs from_ ++ if q = p then [v] else [] := by
  rw [originating, List.zip_append h, List.filterMap_append, originating]
  by_cases hq : q = p
  · simp only [List.zip_cons_cons, List.zip_nil_right, List.filterMap_cons, List.filterMap_nil, hq,
      if_true]
  · simp only [List.zip_cons_cons, List.zip_nil_right, List.filterMap_cons, List.filterMap_nil, hq,
      if_false]

/-- The origin of a value that has not been delivered yet. -/
theorem originating_ahead {V : Type} (p q : Nat) (vs : List V) (from_ : List Nat)
    (h : vs.length = from_.length) : originating p vs (from_ ++ [q]) = originating p vs from_ := by
  rw [originating, originating]
  have hzip : vs.zip (from_ ++ [q]) = vs.zip from_ := by
    have happend : (vs ++ []).zip (from_ ++ [q]) = vs.zip from_ ++ [].zip [q] :=
      List.zip_append h
    simpa only [List.append_nil, List.zip_nil_left] using happend
  rw [hzip]

/-- Nothing comes from where nothing was taken. -/
theorem originating_nil {V : Type} (p : Nat) (vs : List V) (from_ : List Nat) (h : p ∉ from_) :
    originating p vs from_ = [] := by
  rw [originating, List.filterMap_eq_nil_iff]
  intro x hx
  rw [if_neg]
  intro hp
  exact h (hp ▸ (List.of_mem_zip hx).2)

/-- An upstream nobody has asked is not among the origins. -/
theorem tokens_pos_of_mem_origins (p : Nat) (log : Log (Sigma T) ι T) (h : p ∈ origins log) :
    0 < tokens p log := by
  induction log with
  | nil => exact absurd h List.not_mem_nil
  | cons n log ih =>
      rw [tokens_cons]
      rw [origins_cons, List.mem_append] at h
      rcases h with hold | hnew
      · exact Nat.lt_add_right _ (ih hold)
      · cases n with
        | call c => exact absurd hnew List.not_mem_nil
        | out o => exact absurd hnew List.not_mem_nil
        | said q i o => exact absurd hnew List.not_mem_nil
        | ask q c =>
            cases c with
            | subscribe => exact absurd hnew List.not_mem_nil
            | cancel => exact absurd hnew List.not_mem_nil
            | request k =>
                simp only [takenIn] at hnew
                by_cases hpos : 0 < tokens q log
                · rw [if_pos hpos, Option.toList_some, List.mem_singleton] at hnew
                  rw [hnew]
                  exact Nat.lt_add_right _ hpos
                · rw [if_neg hpos] at hnew
                  exact absurd hnew List.not_mem_nil

end Log

end MergeStream

end RxCppUniq
