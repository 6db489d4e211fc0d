import RxCppUniq.Reactive.Stream

/-!
# Generating Streams

`GeneratingStream` calls a function on a state for each event. It is the only
stream that subscribes to nothing itself. It deletes itself after it has sent
its last event and when it is cancelled, and looks whether it is still there
after each call of its subscriber by means of a copy of its subscription
state.

## Main definitions

* `GeneratingStream`: The fields.
* `GeneratingStream.component`: The methods.
* `GeneratingStream.valueGenerator`: The generator of a value publisher.
* `GeneratingStream.events`: The first events a generator makes, up to its
  end.

## Theorems

* `GeneratingStream.events_succ`: One event more.
* `GeneratingStream.events_prefix`: The beginning of the first events is the
  first events.
* `GeneratingStream.events_eq_of_isEnd`: After an end there are no more events.
-/

namespace RxCppUniq

open Theory

structure GeneratingStream (S : Type) where
  /-- `subscription_state_` was cleared, by the destructor. -/
  hasEnded : Bool := false
  state : S
  requested : RequestBalance := .zero
  generating : Bool := false

namespace GeneratingStream

/-- Where a method waits for a call to return, and where the loop begins
    again. -/
inductive Point where
  /-- Nothing is left to do. -/
  | done
  /-- The loop head of `Generate`. -/
  | generate
  /-- After an event was sent. -/
  | sent (isEnd : Bool)
deriving DecidableEq

variable {S T : Type}

/-- The parts of a stream that subscribes to nothing. -/
abbrev NoParts : Empty → Type := fun _ => Empty

abbrev Result (S T : Type) := GeneratingStream S × Act Call (Signal T) Empty Point

/-- `delete this`, which destroys the subscriber as well. -/
def delete (s : GeneratingStream S) : Result S T :=
  ({ s with hasEnded := true }, .out .destroy .done)

def request (s : GeneratingStream S) (count : Nat) : Result S T :=
  let s := { s with requested := s.requested.add count }
  if s.generating then (s, .ret) else ({ s with generating := true }, .goto .generate)

/-- One round of the loop in `Generate` up to the call of the subscriber. -/
def generate (generator : S → StatusOr T × S) (s : GeneratingStream S) : Result S T :=
  if s.requested.hasRequests then
    match s.requested.remove 1 with
    | none => (s, .fail "negative request balance")
    | some b =>
        let event := (generator s.state).1
        ({ s with requested := b, state := (generator s.state).2 },
          .out (.onNext event) (.sent event.isEnd))
  else ({ s with generating := false }, .ret)

/-- The rest of the round. -/
def sent (s : GeneratingStream S) (isEnd : Bool) : Result S T :=
  if s.hasEnded then (s, .ret)
  else if isEnd then s.delete
  else (s, .goto .generate)

/-- The methods. -/
abbrev component (generator : S → StatusOr T × S) (initial : S) : Operator T Empty NoParts where
  State := GeneratingStream S
  Point := Point
  start := { state := initial }
  call _ s
    | .subscribe => (s, .out .onSubscribe .done)
    | .request count => s.request count
    | .cancel => s.delete
  said _ _ _ i := nomatch i
  resume _ s
    | .done => (s, .ret)
    | .generate => s.generate generator
    | .sent isEnd => s.sent isEnd
  look s := s.hasEnded

/-- The generator of `CreateValuePublisher`. Its state is the index of the next
    value. -/
def valueGenerator (values : List T) (index : Nat) : StatusOr T × Nat :=
  match values[index]? with
  | none => (.done, index)
  | some value => (.value value, index + 1)

/-- The first events a generator makes, up to its end. -/
def events (generator : S → StatusOr T × S) : Nat → S → List (StatusOr T)
  | 0, _ => []
  | n + 1, s =>
      let r := generator s
      if r.1.isEnd then [r.1] else r.1 :: events generator n r.2

/-- The state after so many events. -/
def after (generator : S → StatusOr T × S) : Nat → S → S
  | 0, s => s
  | n + 1, s => after generator n (generator s).2

/-- As long as there is no end among them, one event more is made from the
    state the others have left. -/
theorem events_succ (generator : S → StatusOr T × S) (n : Nat) (s : S)
    (h : ∀ e ∈ events generator n s, e.isEnd = false) :
    events generator (n + 1) s =
      events generator n s ++ [(generator (after generator n s)).1] := by
  induction n generalizing s with
  | zero =>
      simp only [events, after, List.nil_append]
      by_cases hend : (generator s).1.isEnd = true
      · rw [if_pos hend]
      · rw [if_neg hend]
  | succ n ih =>
      rw [events]
      by_cases hend : (generator s).1.isEnd = true
      · have hno := h (generator s).1 (by simp [events, hend])
        exact absurd (hno.symm.trans hend) (by decide)
      · simp only [hend, Bool.false_eq_true, if_false]
        have hrest : ∀ e ∈ events generator n (generator s).2, e.isEnd = false := by
          intro e he
          exact h e (by simp [events, hend, he])
        rw [ih _ hrest]
        simp only [events, hend, Bool.false_eq_true, if_false, List.cons_append, after]

theorem after_succ (generator : S → StatusOr T × S) (n : Nat) (s : S) :
    after generator (n + 1) s = (generator (after generator n s)).2 := by
  induction n generalizing s with
  | zero => rfl
  | succ n ih => exact ih _

/-- The beginning of the first events is the first events. -/
theorem events_prefix (generator : S → StatusOr T × S) (n : Nat) (s : S)
    (l l' : List (StatusOr T)) (h : events generator n s = l ++ l') :
    l = events generator l.length s := by
  induction n generalizing s l with
  | zero =>
      rw [events] at h
      rw [(List.append_eq_nil_iff.mp h.symm).1]
      rfl
  | succ n ih =>
      cases l with
      | nil => rfl
      | cons e l =>
          rw [events] at h
          rw [List.length_cons, events]
          by_cases hend : (generator s).1.isEnd = true
          · rw [if_pos hend, List.cons_append, List.cons.injEq] at h
            rw [if_pos hend, h.1, (List.append_eq_nil_iff.mp h.2.symm).1]
          · rw [if_neg hend, List.cons_append, List.cons.injEq] at h
            rw [if_neg hend, h.1, ← ih (generator s).2 l h.2]

/-- After an end there are no more events. -/
theorem events_eq_of_isEnd (generator : S → StatusOr T × S) (n m : Nat) (s : S) (e : StatusOr T)
    (he : e ∈ events generator n s) (hend : e.isEnd = true) (hle : n ≤ m) :
    events generator m s = events generator n s := by
  induction n generalizing m s with
  | zero => exact absurd he List.not_mem_nil
  | succ n ih =>
      cases m with
      | zero => exact absurd hle (Nat.not_succ_le_zero n)
      | succ m =>
          simp only [events] at he ⊢
          by_cases hfirst : (generator s).1.isEnd = true
          · rw [if_pos hfirst, if_pos hfirst]
          · rw [if_neg hfirst] at he
            rw [if_neg hfirst, if_neg hfirst]
            rcases List.mem_cons.mp he with rfl | he
            · exact absurd hend hfirst
            · rw [ih m _ he (Nat.le_of_succ_le_succ hle)]

/-- More events begin with fewer. -/
theorem events_prefix_of_le (generator : S → StatusOr T × S) (n m : Nat) (s : S) (hle : n ≤ m) :
    events generator n s <+: events generator m s := by
  induction n generalizing m s with
  | zero => exact List.nil_prefix
  | succ n ih =>
      cases m with
      | zero => exact absurd hle (Nat.not_succ_le_zero n)
      | succ m =>
          simp only [events]
          by_cases hfirst : (generator s).1.isEnd = true
          · simp only [if_pos hfirst, List.prefix_refl]
          · rw [if_neg hfirst, if_neg hfirst]
            exact List.cons_prefix_cons.mpr ⟨rfl, ih m _ (Nat.le_of_succ_le_succ hle)⟩

/-- Only the last event is an end. -/
theorem isEnd_of_mem_dropLast (generator : S → StatusOr T × S) (n : Nat) (s : S)
    (e : StatusOr T) (h : e ∈ (events generator n s).dropLast) : e.isEnd = false := by
  induction n generalizing s with
  | zero => exact absurd h (by simp only [events, List.dropLast_nil, List.not_mem_nil,
      not_false_eq_true])
  | succ n ih =>
      rw [events] at h
      by_cases hend : (generator s).1.isEnd = true
      · rw [if_pos hend] at h
        exact absurd h List.not_mem_nil
      · rw [if_neg hend] at h
        cases hrest : events generator n (generator s).2 with
        | nil =>
            rw [hrest] at h
            exact absurd h List.not_mem_nil
        | cons x xs =>
            rw [hrest, List.dropLast_cons_cons, ← hrest] at h
            rcases List.mem_cons.mp h with rfl | h
            · simpa only [Bool.not_eq_true] using hend
            · exact ih _ h

end GeneratingStream

end RxCppUniq
