import RxCppUniq.Reactive.Stream

/-!
# Concat

`ConcatStream`: first the events of one stream, then those of another. The
second publisher waits in `continue_with_` and is subscribed when the first
stream is done, from within the call that delivers the `Done`. Demand that
the first stream was asked for and did not serve is rolled over.

The stream is a shared object. It is held by the `SharedSubscriberWrapper`
each of the two streams owns, by the lock on itself, and while it is being
subscribed by the pointer `Create` returned; it is destroyed when nobody
holds it any more.

## Main definitions

* `Half`: The two streams.
* `ConcatStream`: The fields.
* `ConcatStream.component`: The methods.
-/

namespace RxCppUniq

open Theory

/-- The streams a `ConcatStream` subscribes to. -/
inductive Half where
  | first
  | second
deriving DecidableEq, Repr

structure ConcatStream where
  /-- `subscription_state_` was cleared, by the destructor. -/
  hasEnded : Bool := false
  /-- `continue_with_` still holds the second publisher. -/
  continueWith : Bool := true
  upstreamSubscription : Option Nat := none
  requestBalance : RequestBalance := .zero
  selfLock : Bool := false
  /-- The subscriber wrappers that hold this object. -/
  wrappers : Nat := 0
  /-- The pointer returned by `Create` is alive. -/
  created : Bool := false

namespace ConcatStream

/-- Where a method waits for a call to return. -/
inductive Point where
  /-- Nothing is left to do. -/
  | done
  /-- `SubscribeNext` has returned to `ConcatPublisher::Subscribe`. -/
  | subscribed
  /-- After the last event in `OnNext`: `self_lock_.reset()`. -/
  | selfDestruct

variable {T : Type}

abbrev Result (T : Type) := ConcatStream × Act Call (Signal T) Half Point

def isRunningFirst (s : ConcatStream) : Bool :=
  s.continueWith

/-- The object is destroyed once nobody holds it, and its subscriber with
    it. -/
def release (s : ConcatStream) : Result T :=
  if s.selfLock || s.wrappers != 0 || s.created || s.hasEnded then (s, .ret)
  else ({ s with hasEnded := true }, .out .destroy .done)

/-- Lock this object and subscribe a wrapper of it to a stream. -/
def subscribeNext (s : ConcatStream) (half : Half) (k : Point) : Result T :=
  ({ s with selfLock := true, wrappers := s.wrappers + 1 }, .make half .subscribe k)

def cancel (views : Nat → Bool) (s : ConcatStream) : Result T :=
  match s.upstreamSubscription with
  | none => (s, .fail "OnSubscribe has never been called")
  | some p => if views p then (s, .ret) else (s, .ask p .cancel .done)

def request (views : Nat → Bool) (s : ConcatStream) (count : Nat) : Result T :=
  match s.upstreamSubscription with
  | none => (s, .fail "OnSubscribe has never been called")
  | some p =>
      let s := { s with requestBalance := s.requestBalance.add count }
      if views p then (s, .ret) else (s, .ask p (.request count) .done)

def onSubscribe (s : ConcatStream) (p : Nat) : Result T :=
  if s.upstreamSubscription.isSome && s.isRunningFirst then (s, .fail "already subscribed")
  else
    let s := { s with upstreamSubscription := some p }
    if s.isRunningFirst then (s, .out .onSubscribe .done)
    else if s.requestBalance.hasRequests then
      (s, .ask p (.request s.requestBalance.balance) .done)
    else (s, .ret)

def onNext (s : ConcatStream) (event : StatusOr T) : Result T :=
  if !event.isEnd then
    match s.requestBalance.remove 1 with
    | none => (s, .fail "negative request balance")
    | some b => ({ s with requestBalance := b }, .out (.onNext event) .done)
  else if event.isError || !s.isRunningFirst then
    (s, .out (.onNext event) .selfDestruct)
  else
    -- `continue_with_` is moved into the argument of `SubscribeNext`.
    subscribeNext { s with upstreamSubscription := none, continueWith := false } .second .done

/-- The methods. `Create` and `SubscribeNext` are run by `Subscribe` of the
    publisher; a `destroy` of a stream destroys its wrapper of this object. -/
abbrev component (T : Type) : Operator T Half (fun _ => T) where
  State := ConcatStream
  Point := Point
  start := {}
  call views s
    | .subscribe => subscribeNext { s with created := true } .first .subscribed
    | .request count => s.request views count
    | .cancel => s.cancel views
  said _ s p _
    | .onSubscribe => s.onSubscribe p
    | .onNext event => s.onNext event
    | .destroy => release { s with wrappers := s.wrappers - 1 }
  resume _ s
    | .done => (s, .ret)
    | .subscribed => release { s with created := false }
    | .selfDestruct => release { s with selfLock := false }
  look s := s.hasEnded

end ConcatStream

end RxCppUniq
