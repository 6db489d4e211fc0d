import RxCppUniq.Reactive.Generating
import RxCppUniq.Theory.Link

/-!
# Sources

A generator publisher with finitely many values, and its stream as a part of
an operator. Which state the generator has is left open; what it makes from
its initial state are some values and then a status which ends the stream.

## Main definitions

* `valuesThen`: Some values and a status.
* `Source`: A generator with finitely many values.
* `Source.published`: Its events.
* `Source.ofList`: The generator that steps through a list.
* `Source.ofValues`: The publisher of a vector of values.
* `GeneratingStream.parts`: The stream of a generator as a part.

## Theorems

* `Source.generator_value`, `Source.generator_ending`: What the generator
  makes next.
-/

namespace RxCppUniq

open Theory

/-- Some values, and then a status. -/
def valuesThen {T : Type} (values : List T) (ending : Status) (notOk : ending.code ≠ .ok) :
    List (StatusOr T) :=
  values.map StatusOr.value ++ [StatusOr.status ending notOk]

/-- A generator with finitely many values. -/
structure Source (T : Type) where
  State : Type
  generator : State → StatusOr T × State
  initial : State
  values : List T
  ending : Status
  notOk : ending.code ≠ .ok
  /-- The events are the values and then the status. -/
  publishes : ∀ n, GeneratingStream.events generator n initial =
    (valuesThen values ending notOk).take n

namespace Source

variable {T : Type} (source : Source T)

/-- The events of a source. -/
def published : List (StatusOr T) :=
  valuesThen source.values source.ending source.notOk

/-- The state of the generator when it has made so many events. -/
abbrev stateAt (n : Nat) : source.State :=
  GeneratingStream.after source.generator n source.initial

/-- As long as there are values left the generator makes the next event. -/
theorem generator_stateAt (n : Nat) (h : n ≤ source.values.length) :
    some (source.generator (source.stateAt n)).1 = source.published[n]? := by
  have hno : ∀ e ∈ GeneratingStream.events source.generator n source.initial,
      e.isEnd = false := by
    intro e he
    rw [source.publishes, valuesThen, List.take_append_of_le_length (by rwa [List.length_map]),
      ← List.map_take] at he
    rcases List.mem_map.mp he with ⟨v, -, rfl⟩
    rfl
  have hlength : n < source.published.length := by
    rw [published, valuesThen, List.length_append, List.length_map, List.length_singleton]
    omega
  have hsucc := GeneratingStream.events_succ source.generator n source.initial hno
  rw [source.publishes, source.publishes, List.take_add_one, List.append_cancel_left_eq]
    at hsucc
  change (source.published[n]?).toList = _ at hsucc
  rw [List.getElem?_eq_getElem hlength, Option.toList_some,
    List.singleton_inj] at hsucc
  rw [List.getElem?_eq_getElem hlength, hsucc]

theorem generator_value (n : Nat) (h : n < source.values.length) :
    (source.generator (source.stateAt n)).1 = .value source.values[n] := by
  have hnext := source.generator_stateAt n (Nat.le_of_lt h)
  rw [published, valuesThen, List.getElem?_append_left (by rwa [List.length_map]),
    List.getElem?_map, List.getElem?_eq_getElem h, Option.map_some, Option.some.injEq] at hnext
  exact hnext

theorem generator_ending :
    (source.generator (source.stateAt source.values.length)).1 =
      .status source.ending source.notOk := by
  have hnext := source.generator_stateAt source.values.length (Nat.le_refl _)
  rw [published, valuesThen, List.getElem?_append_right (Nat.le_of_eq (List.length_map _)),
    List.length_map, Nat.sub_self, List.getElem?_cons_zero, Option.some.injEq] at hnext
  exact hnext

theorem stateAt_succ (n : Nat) :
    (source.generator (source.stateAt n)).2 = source.stateAt (n + 1) :=
  (GeneratingStream.after_succ source.generator n source.initial).symm

/-- The generator that steps through a list of values and then makes a
    status. -/
def step (ending : Status) (notOk : ending.code ≠ .ok) : List T → StatusOr T × List T
  | [] => (.status ending notOk, [])
  | v :: values => (.value v, values)

theorem events_step (ending : Status) (notOk : ending.code ≠ .ok) (n : Nat) (values : List T) :
    GeneratingStream.events (step ending notOk) n values =
      (valuesThen values ending notOk).take n := by
  induction n generalizing values with
  | zero => rfl
  | succ n ih =>
      cases values with
      | nil =>
          have hend : (.status ending notOk : StatusOr T).isEnd = true := StatusOr.isEnd_status _ _
          simp only [GeneratingStream.events, step, hend, if_true, valuesThen, List.map_nil,
            List.nil_append, List.take_succ_cons, List.take_nil]
      | cons v values =>
          simp only [GeneratingStream.events, step, StatusOr.isEnd_value, Bool.false_eq_true,
            if_false, valuesThen, List.map_cons, List.cons_append, List.take_succ_cons, ih]

def ofList (values : List T) (ending : Status) (notOk : ending.code ≠ .ok) : Source T where
  State := List T
  generator := step ending notOk
  initial := values
  values := values
  ending := ending
  notOk := notOk
  publishes n := events_step ending notOk n values

/-- The status of `Done()`. -/
def doneStatus : Status := { code := .outOfRange }

theorem doneStatus_notOk : doneStatus.code ≠ .ok := by decide

theorem events_valueGenerator (values : List T) (n index : Nat) :
    GeneratingStream.events (GeneratingStream.valueGenerator values) n index =
      (valuesThen (values.drop index) doneStatus doneStatus_notOk).take n := by
  induction n generalizing index with
  | zero => rfl
  | succ n ih =>
      rw [GeneratingStream.events, GeneratingStream.valueGenerator]
      cases hget : values[index]? with
      | none =>
          have hend : (.status doneStatus doneStatus_notOk : StatusOr T).isEnd = true :=
            StatusOr.isEnd_status _ _
          have hdone : (.done : StatusOr T) = .status doneStatus doneStatus_notOk := rfl
          rw [List.drop_eq_nil_of_le (List.getElem?_eq_none_iff.mp hget)]
          simp only [hdone, hend, if_true, valuesThen, List.map_nil, List.nil_append,
            List.take_succ_cons, List.take_nil]
      | some v =>
          rcases List.getElem?_eq_some_iff.mp hget with ⟨hlt, rfl⟩
          rw [List.drop_eq_getElem_cons hlt]
          simp only [StatusOr.isEnd_value, Bool.false_eq_true, if_false, ih, valuesThen,
            List.map_cons, List.cons_append, List.take_succ_cons]

/-- The publisher of a vector of values. -/
def ofValues (values : List T) : Source T where
  State := Nat
  generator := GeneratingStream.valueGenerator values
  initial := 0
  values := values
  ending := doneStatus
  notOk := doneStatus_notOk
  publishes n := events_valueGenerator values n 0

end Source

namespace GeneratingStream

variable {S T : Type}

/-- The stream of a generator as the part of an operator that subscribes to
    one stream. -/
abbrev parts (generator : S → StatusOr T × S) (initial : S) :
    Parts Call Bool Unit (fun _ => Signal T) where
  State := GeneratingStream S
  Point := Point
  kind _ := ()
  call u c := (component generator initial).call (fun _ => false) u c
  resume u k := (component generator initial).resume (fun _ => false) u k
  look u := u.hasEnded

end GeneratingStream

end RxCppUniq
