import RxCppUniq.Reactive.Stream

/-!
# FlatMap

`FlatMapStream`: each value of the base stream is replaced by the stream
which a function makes of it, the continuation. The stream is the subscriber
of the base, which owns it. It owns nothing itself: a continuation is
subscribed through two lambdas that capture `this`, and is kept alive by
whoever publishes it.

The lambdas of a continuation may be called when the `FlatMapStream` is
destroyed. The destructor prevents it for the continuation whose
subscription it knows; for any other such a call is a use after free.

## Main definitions

* `FlatMapStream`: The fields.
* `FlatMapStream.Published`: What the base and the continuations publish.
* `FlatMapStream.component`: The methods.
-/

namespace RxCppUniq

open Theory

structure FlatMapStream where
  /-- `subscription_state_` was cleared, by the destructor. -/
  hasEnded : Bool := false
  /-- Requested but not yet delivered events. -/
  requestBalance : RequestBalance := .zero
  /-- Events already requested from the continuation. -/
  contRequested : RequestBalance := .zero
  baseSubscription : Option Nat := none
  contSubscription : Option Nat := none

namespace FlatMapStream

/-- Where a method waits for a call to return. -/
inductive Point where
  /-- Nothing is left to do. -/
  | done
  /-- After `Send` in `Terminate`: `base_subscription().Cancel()`. -/
  | terminate
  /-- After `cont_subscription_.value().Cancel()` in the destructor. -/
  | destroying

/-- What the streams publish: the base stream, and the continuation of each
    value. -/
@[reducible] def Published (T R : Type) : Option T → Type
  | none => T
  | some _ => R

variable {T R : Type}

abbrev Result (T R : Type) := FlatMapStream × Act Call (Signal R) (Option T) Point

/-- A call through `base_subscription()`. -/
def askBase (s : FlatMapStream) (c : Call) : Result T R :=
  match s.baseSubscription with
  | none => (s, .fail "OnSubscribe was never called")
  | some p => (s, .ask p c .done)

def cancel (s : FlatMapStream) : Result T R :=
  s.askBase .cancel

/-- The difference of two balances as the `size_t` it is computed in. -/
def delta (s : FlatMapStream) : Nat :=
  (2 ^ 64 + s.requestBalance.balance - s.contRequested.balance) % 2 ^ 64

def request (s : FlatMapStream) (tokens : Nat) : Result T R :=
  let s := { s with requestBalance := s.requestBalance.add tokens }
  match s.contSubscription with
  | some p =>
      if 0 < s.delta then
        ({ s with contRequested := s.contRequested.add s.delta }, .ask p (.request s.delta) .done)
      else (s, .ret)
  | none => s.askBase (.request 1)

def send (s : FlatMapStream) (event : StatusOr R) (k : Point) : Result T R :=
  (s, .out (.onNext event) k)

def flowControlError : Status :=
  rxStatus .failedPrecondition "reactive_impl.inc:1219" "flow control error"

def onNext (s : FlatMapStream) : StatusOr T → Result T R
  | .status status h => s.send (.status status h) .done
  | .value v =>
      if s.contSubscription.isSome then s.send (.status flowControlError (by decide)) .terminate
      else (s, .make (some v) .subscribe .done)

def onSubscribe (s : FlatMapStream) (p : Nat) : Result T R :=
  ({ s with baseSubscription := some p }, .out .onSubscribe .done)

/-- The lambda that is called when the continuation has been subscribed. -/
def onSubscribeCont (s : FlatMapStream) (p : Nat) : Result T R :=
  if s.hasEnded then (s, .fail useAfterFree)
  else
    let s := { s with contSubscription := some p, contRequested := .zero }
    if s.requestBalance.hasRequests then s.request 0 else (s, .ret)

def onNextCont (s : FlatMapStream) (event : StatusOr R) : Result T R :=
  if s.hasEnded then (s, .fail useAfterFree)
  else if !event.isEnd then
    match s.requestBalance.remove 1 with
    | none => (s, .fail "negative request balance")
    | some b =>
        let s := { s with requestBalance := b }
        match s.contRequested.remove 1 with
        | none => (s, .fail "negative request balance")
        | some b => { s with contRequested := b }.send event .done
  else if event.isDone then
    let s := { s with contSubscription := none }
    if s.requestBalance.hasRequests then s.request 0 else (s, .ret)
  else s.send event .terminate

/-- After the body of the destructor the members are destroyed, the
    subscriber among them. -/
def destroyed (s : FlatMapStream) : Result T R :=
  ({ s with hasEnded := true }, .out .destroy .done)

def destructor (views : Nat → Bool) (s : FlatMapStream) : Result T R :=
  match s.contSubscription with
  | some p => if views p then s.destroyed else (s, .ask p .cancel .destroying)
  | none => s.destroyed

/-- The methods. The base stream has no kind of its own, a continuation is of
    the kind of the value it replaces. -/
abbrev component (T R : Type) : Operator R (Option T) (Published T R) where
  State := FlatMapStream
  Point := Point
  start := {}
  call _ s
    | .subscribe => (s, .make none .subscribe .done)
    | .request tokens => s.request tokens
    | .cancel => s.cancel
  said views s p
    | none, .onSubscribe => s.onSubscribe p
    | none, .onNext event => s.onNext event
    | none, .destroy => s.destructor views
    | some _, .onSubscribe => s.onSubscribeCont p
    | some _, .onNext event => s.onNextCont event
    | some _, .destroy => (s, .ret)
  resume _ s
    | .done => (s, .ret)
    | .terminate => if s.hasEnded then (s, .fail useAfterFree) else s.askBase .cancel
    | .destroying => s.destroyed
  look s := s.hasEnded

end FlatMapStream

end RxCppUniq
