import RxCppUniq.Reactive.Stream

/-!
# Singles

`Single::Subscribe`: the two lambdas that turn a stream into one result. They
request one event, pass it to the listener and cancel the rest. The flag
`called` is shared by all events; it is written before each call of the
listener, and read only where the event is the end marker.

The listener is the environment. It has the single's result from one call,
which is written as the delivery of an event.

## Main definitions

* `SingleSubscriber`: The flag.
* `SingleSubscriber.component`: The lambdas.
-/

namespace RxCppUniq

open Theory

structure SingleSubscriber where
  called : Bool := false

namespace SingleSubscriber

/-- Where a lambda waits for a call to return. -/
inductive Point where
  /-- Nothing is left to do. -/
  | done
  /-- After the listener was called with an event of the stream with number
      `p`. -/
  | listened (p : Nat) (isEnd : Bool)

variable {T : Type}

abbrev Result (T : Type) := SingleSubscriber × Act Call (Signal T) Unit Point

def unexpectedEnd : Status :=
  rxStatus .failedPrecondition "single.h:86" "unexpected end-of-stream for single"

theorem unexpectedEnd_notOk : unexpectedEnd.code ≠ .ok := by decide

def onSubscribe (s : SingleSubscriber) (p : Nat) : Result T :=
  (s, .ask p (.request 1) .done)

def onNext (s : SingleSubscriber) (p : Nat) (next : StatusOr T) : Result T :=
  if next.isDone then
    if !s.called then
      ({ s with called := true }, .out (.onNext (.status unexpectedEnd unexpectedEnd_notOk)) .done)
    else (s, .ret)
  else ({ s with called := true }, .out (.onNext next) (.listened p next.isEnd))

/-- The rest of the lambda after the listener was called. -/
def listened (views : Nat → Bool) (s : SingleSubscriber) (p : Nat) (isEnd : Bool) : Result T :=
  if !isEnd && !views p then (s, .ask p .cancel .done) else (s, .ret)

/-- The lambdas. A listener cannot call the stream. -/
abbrev component (T : Type) : Operator T Unit (fun _ => T) where
  State := SingleSubscriber
  Point := Point
  start := {}
  call _ s
    | .subscribe => (s, .make () .subscribe .done)
    | .request _ => (s, .ret)
    | .cancel => (s, .ret)
  said _ s p _
    | .onSubscribe => s.onSubscribe p
    | .onNext event => s.onNext p event
    | .destroy => (s, .ret)
  resume views s
    | .done => (s, .ret)
    | .listened p isEnd => s.listened views p isEnd
  look _ := false

end SingleSubscriber

end RxCppUniq
