import RxCppUniq.Reactive.Stream

/-!
# Prefetch

`PrefetchingStream` asks its upstream for more than it was asked for itself
and keeps what arrives in a buffer. Filling and delivering go on in one
another's calls: a request to the upstream may bring events at once, and the
subscriber may request from within its `OnNext`. One flag keeps the loop of
`MaybeDeliver` from being entered twice.

The stream is a shared object. It is held by the wrapper its upstream owns,
by its lock on itself until the last event has been delivered, and by the
pointer in `Subscribe` while it is being subscribed.

## Main definitions

* `PrefetchingPublisher`: The parameters.
* `PrefetchingStream`: The fields.
* `PrefetchingStream.component`: The methods.
-/

namespace RxCppUniq

open Theory

/-- The parameters of `Prefetch`. `refill` is the product of buffer size and
    refill mark, converted to a `size_t`: with so many elements or less the
    buffer is filled up. -/
structure PrefetchingPublisher where
  bufferSize : Nat
  refill : Nat
  fits : bufferSize ≤ kMax

structure PrefetchingStream (T : Type) where
  /-- `subscription_state_` was cleared, by the destructor. -/
  hasEnded : Bool := false
  selfLock : Bool := false
  /-- The wrapper which the upstream owns holds this object. -/
  wrapped : Bool := false
  /-- The pointer returned by `Create` is alive. -/
  created : Bool := false
  upstreamSubscription : Option Nat := none
  buffer : List (StatusOr T) := []
  requestBalance : RequestBalance := .zero
  upstreamRequestBalance : RequestBalance := .zero
  delivering : Bool := false

namespace PrefetchingStream

/-- Where a method waits for a call to return, and where the loop begins
    again. -/
inductive Point where
  /-- Nothing is left to do. -/
  | done
  /-- The upstream has been subscribed. -/
  | subscribed
  /-- After `subscriber_->OnSubscribe`. -/
  | confirmed
  /-- The loop head of `MaybeDeliver`. -/
  | deliver
  /-- After an event was delivered. -/
  | delivered (isEnd : Bool)
  /-- After `MaybeFill` in the loop. -/
  | filled

variable {T : Type}

abbrev Result (T : Type) := PrefetchingStream T × Act Call (Signal T) Unit Point

/-- The object is destroyed once nobody holds it, and its subscriber with
    it. -/
def release (s : PrefetchingStream T) : Result T :=
  if s.selfLock || s.wrapped || s.created || s.hasEnded then (s, .ret)
  else ({ s with hasEnded := true }, .out .destroy .done)

def maybeDeliver (s : PrefetchingStream T) : Result T :=
  if s.delivering then (s, .ret) else ({ s with delivering := true }, .goto .deliver)

/-- One round of the loop in `MaybeDeliver` up to the call of the
    subscriber. -/
def deliver (s : PrefetchingStream T) : Result T :=
  match s.buffer with
  | [] => ({ s with delivering := false }, .ret)
  | event :: buffer =>
      if s.requestBalance.hasRequests then
        match s.requestBalance.remove 1 with
        | none => (s, .fail "negative request balance")
        | some b =>
            ({ s with requestBalance := b, buffer := buffer },
              .out (.onNext event) (.delivered event.isEnd))
      else ({ s with delivering := false }, .ret)

/-- The difference to a full buffer, which the check in `OnNext` keeps from
    being negative. -/
def toFill (publisher : PrefetchingPublisher) (s : PrefetchingStream T) : Nat :=
  publisher.bufferSize - s.buffer.length

/-- `MaybeFill`, after which the code goes on at `k`. -/
def maybeFill (publisher : PrefetchingPublisher) (views : Nat → Bool) (s : PrefetchingStream T)
    (k : Point) : Result T :=
  match s.upstreamSubscription with
  | none => (s, .fail "OnSubscribe has never been called")
  | some p =>
      if views p then (s, .goto k)
      else if publisher.refill < s.buffer.length then (s, .goto k)
      else if s.toFill publisher ≤ s.upstreamRequestBalance.balance then (s, .goto k)
      else
        let request := s.toFill publisher - s.upstreamRequestBalance.balance
        ({ s with upstreamRequestBalance := s.upstreamRequestBalance.add request },
          .ask p (.request request) k)

def subscribe (publisher : PrefetchingPublisher) (s : PrefetchingStream T) : Result T :=
  if publisher.bufferSize = 0 then (s, .fail "count must be greater 0")
  else ({ s with created := true, selfLock := true, wrapped := true },
    .make () .subscribe .subscribed)

def onSubscribe (s : PrefetchingStream T) (p : Nat) : Result T :=
  if s.upstreamSubscription.isSome then (s, .fail "OnSubscribe already called")
  else ({ s with upstreamSubscription := some p }, .out .onSubscribe .confirmed)

def overflow : Status :=
  rxStatus .resourceExhausted "reactive_impl.inc:535"
    "fetch buffer overflow (upstream flow control violation)"

def onNext (publisher : PrefetchingPublisher) (s : PrefetchingStream T) (event : StatusOr T) :
    Result T :=
  if publisher.bufferSize ≤ s.buffer.length then
    maybeDeliver { s with buffer := s.buffer.dropLast ++ [.status overflow (by decide)] }
  else match s.upstreamRequestBalance.remove 1 with
    | none => (s, .fail "negative request balance")
    | some b => maybeDeliver { s with upstreamRequestBalance := b, buffer := s.buffer ++ [event] }

def cancel (s : PrefetchingStream T) : Result T :=
  match s.upstreamSubscription with
  | none => (s, .fail "OnSubscribe has never been called")
  | some p => (s, .ask p .cancel .done)

def request (s : PrefetchingStream T) (count : Nat) : Result T :=
  maybeDeliver { s with requestBalance := s.requestBalance.add count }

/-- The rest of the loop after an event was delivered. -/
def delivered (publisher : PrefetchingPublisher) (views : Nat → Bool) (s : PrefetchingStream T)
    (isEnd : Bool) : Result T :=
  if s.hasEnded then (s, .fail useAfterFree)
  else if isEnd then release { s with delivering := false, selfLock := false }
  else s.maybeFill publisher views .filled

def filled (s : PrefetchingStream T) : Result T :=
  if s.hasEnded then (s, .fail useAfterFree)
  else if s.buffer.isEmpty then ({ s with delivering := false }, .ret)
  else (s, .goto .deliver)

/-- The methods. -/
abbrev component (T : Type) (publisher : PrefetchingPublisher) : Operator T Unit (fun _ => T) where
  State := PrefetchingStream T
  Point := Point
  start := {}
  call _ s
    | .subscribe => s.subscribe publisher
    | .request count => s.request count
    | .cancel => s.cancel
  said _ s p _
    | .onSubscribe => s.onSubscribe p
    | .onNext event => s.onNext publisher event
    | .destroy => release { s with wrapped := false }
  resume views s
    | .done => (s, .ret)
    | .subscribed => release { s with created := false }
    | .confirmed =>
        if s.hasEnded then (s, .fail useAfterFree) else s.maybeFill publisher views .done
    | .deliver => s.deliver
    | .delivered isEnd => s.delivered publisher views isEnd
    | .filled => s.filled
  look s := s.hasEnded

end PrefetchingStream

end RxCppUniq
