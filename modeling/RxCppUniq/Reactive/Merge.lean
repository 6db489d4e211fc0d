import RxCppUniq.Reactive.Stream

/-!
# Merge

`MergeStream` subscribes a `MergeUpstreamSubscriber` to each upstream. Each of
these always asks for one event and keeps it until `MaybeDeliver`, which goes
round the upstreams in a loop, consumes it. How many of them have an event is
not counted over the upstreams but in a balance, which they change by +1 and
-1 as events come and go. The parameter of that callback is an `int` and the
balance takes a `size_t`.

The stream is a shared object. It is held by its lock on itself, by the
pointer in `Subscribe` while it is being set up, and by the callback of every
`MergeUpstreamSubscriber`. Those are shared objects too, held by the wrapper
their upstream owns and by a pointer of the stream.

## Main definitions

* `MergePublisher`: The upstreams.
* `MergeUpstreamSubscriber`, `MergeStream`: The fields.
* `MergeStream.deliver`: One round of the loop of `MaybeDeliver`.
* `MergeStream.component`: The methods.
-/

namespace RxCppUniq

open Theory

/-- The upstreams by their kinds. Positions in this list are kept in an
    `int`. -/
structure MergePublisher (ι : Type) where
  upstream : List ι
  fits : upstream.length < 2 ^ 31

structure MergeUpstreamSubscriber (V : Type) where
  next : Option (StatusOr V) := none
  upstreamSubscription : Option Nat := none
  /-- The stream has a pointer to this object. -/
  attached : Bool := true
  /-- The wrapper which the upstream owns holds this object. -/
  wrapped : Bool := true

namespace MergeUpstreamSubscriber

variable {V : Type}

def hasNext (u : MergeUpstreamSubscriber V) : Bool :=
  u.next.isSome

def alive (u : MergeUpstreamSubscriber V) : Bool :=
  u.attached || u.wrapped

end MergeUpstreamSubscriber

structure MergeStream (V : Type) where
  /-- `subscription_state_` was cleared, by the destructor. -/
  hasEnded : Bool := false
  upstreamSubscribers : List (MergeUpstreamSubscriber V) := []
  selfLock : Bool := false
  /-- The pointer returned by `Create` is alive. -/
  created : Bool := false
  currentIndex : Nat := 0
  requestBalance : RequestBalance := .zero
  availableBalance : RequestBalance := .zero
  delivering : Bool := false

/-- The conversion of an `int` to a `size_t`. -/
def sizeT (n : Int) : Nat :=
  (n % 2 ^ 64).toNat

/-- The message of the fault for reading an optional or an element of a vector
    that is not there. The source has no such message. -/
def noSuchElement : String := "no such element"

namespace MergeStream

/-- Where a method waits for a call to return, and where the loops begin
    again. -/
inductive Point (V : Type) where
  /-- Nothing is left to do. -/
  | done
  /-- An upstream has been subscribed. -/
  | subscribing
  /-- After `subscriber_->OnSubscribe`, at the end of `Subscribe`. -/
  | confirmed
  /-- The loop head of `MaybeDeliver`. -/
  | deliver
  /-- After the request at the end of `ConsumeNext`. -/
  | consumed (event : StatusOr V)
  /-- After a value was delivered. -/
  | delivered
  /-- After an error was delivered. -/
  | failed
  /-- After `Done` was delivered. -/
  | finished
  /-- The loop head of `Cancel`. -/
  | cancelling (i : Nat)
  /-- After an upstream was cancelled in the loop. -/
  | cancelled (i : Nat)

variable {ι V : Type}

abbrev Result (ι V : Type) := MergeStream V × Act Call (Signal V) ι (Point V)

/-- Somebody holds the stream. -/
def held (s : MergeStream V) : Bool :=
  s.selfLock || s.created || s.upstreamSubscribers.any (·.alive)

/-- The object is destroyed once nobody holds it, and its subscriber with
    it. -/
def release (s : MergeStream V) : Result ι V :=
  if s.held || s.hasEnded then (s, .ret) else ({ s with hasEnded := true }, .out .destroy .done)

def setUpstream (s : MergeStream V) (i : Nat) (u : MergeUpstreamSubscriber V) : MergeStream V :=
  { s with upstreamSubscribers := s.upstreamSubscribers.set i u }

def maybeDeliver (s : MergeStream V) : Result ι V :=
  if s.delivering then (s, .ret) else ({ s with delivering := true }, .goto .deliver)

/-- `available_balance_.Add(diff)` in `UpstreamSubscriberStateChanged`. -/
def addAvailable (s : MergeStream V) (diff : Int) : MergeStream V :=
  { s with availableBalance := s.availableBalance.add (sizeT diff) }

def upstreamSubscriberStateChanged (s : MergeStream V) (diff : Int) : Result ι V :=
  if 0 < diff then (s.addAvailable diff).maybeDeliver else (s.addAvailable diff, .ret)

/-- An upstream ended, and its event has been consumed. The lock on itself
    keeps the stream alive when the pointer to the upstream subscriber is
    reset. -/
def upstreamEnded (s : MergeStream V) (i : Nat) (u : MergeUpstreamSubscriber V)
    (event : StatusOr V) : Result ι V :=
  let s := s.setUpstream i { u with attached := false }
  if event.isError then (s, .out (.onNext event) .failed)
  else if s.upstreamSubscribers.all (!·.attached) then (s, .out (.onNext .done) .finished)
  else (s, .goto .deliver)

def consumeNext (s : MergeStream V) (i : Nat) (u : MergeUpstreamSubscriber V) : Result ι V :=
  match u.next with
  | none => (s, .fail "no next element to consume")
  | some event =>
      let u := { u with next := none }
      let s := (s.setUpstream i u).addAvailable (-1)
      if event.isEnd then s.upstreamEnded i u event
      else match u.upstreamSubscription with
        | none => (s, .fail noSuchElement)
        | some p => (s, .ask p (.request 1) (.consumed event))

/-- The condition of the loop in `MaybeDeliver`. -/
def loopCondition (s : MergeStream V) : Bool :=
  0 < s.requestBalance.balance && 0 < s.availableBalance.balance

/-- One round of the loop in `MaybeDeliver`. -/
def deliver (s : MergeStream V) : Result ι V :=
  if s.hasEnded then (s, .fail useAfterFree)
  else if s.loopCondition then
    let i := s.currentIndex
    let s := { s with currentIndex := (i + 1) % s.upstreamSubscribers.length }
    match s.upstreamSubscribers[i]? with
    | none => (s, .fail noSuchElement)
    | some u => if !u.attached || !u.hasNext then (s, .goto .deliver) else s.consumeNext i u
  else ({ s with delivering := false }, .ret)

/-- The rest of `MaybeDeliver` for a value that has been consumed. -/
def deliverEvent (s : MergeStream V) (event : StatusOr V) : Result ι V :=
  if s.hasEnded then (s, .fail useAfterFree)
  else match s.requestBalance.remove 1 with
    | none => (s, .fail "negative request balance")
    | some b => ({ s with requestBalance := b }, .out (.onNext event) .delivered)

def request (s : MergeStream V) (tokens : Nat) : Result ι V :=
  { s with requestBalance := s.requestBalance.add tokens }.maybeDeliver

/-- One round of the loop in `Cancel`, and what follows the loop. -/
def cancelLoop (s : MergeStream V) (i : Nat) : Result ι V :=
  if s.hasEnded then (s, .fail useAfterFree)
  else match s.upstreamSubscribers[i]? with
    | none => release { s with selfLock := false }
    | some u =>
        if u.attached then match u.upstreamSubscription with
          | none => (s, .fail "OnSubscribe never called")
          | some p => (s, .ask p .cancel (.cancelled i))
        else (s, .goto (.cancelling (i + 1)))

/-- The `reset` after an upstream has been cancelled. -/
def cancelNext (s : MergeStream V) (i : Nat) : Result ι V :=
  if s.hasEnded then (s, .fail useAfterFree)
  else match s.upstreamSubscribers[i]? with
    | none => (s, .fail noSuchElement)
    | some u => (s.setUpstream i { u with attached := false }, .goto (.cancelling (i + 1)))

/-- Subscribe to the next upstream, or confirm the subscription when all are
    subscribed. -/
def subscribeNext (publisher : MergePublisher ι) (s : MergeStream V) : Result ι V :=
  match publisher.upstream[s.upstreamSubscribers.length]? with
  | some i =>
      ({ s with upstreamSubscribers := s.upstreamSubscribers ++ [{}] },
        .make i .subscribe .subscribing)
  | none => (s, .out .onSubscribe .confirmed)

/-- `OnSubscribe` of the subscriber of the upstream at position `p`. -/
def onSubscribe (s : MergeStream V) (p : Nat) : Result ι V :=
  match s.upstreamSubscribers[p]? with
  | none => (s, .fail noSuchElement)
  | some u =>
      if u.upstreamSubscription.isSome then (s, .fail "already subscribed")
      else (s.setUpstream p { u with upstreamSubscription := some p }, .ask p (.request 1) .done)

/-- `OnNext` of the subscriber of the upstream at position `p`. -/
def onNext (s : MergeStream V) (p : Nat) (event : StatusOr V) : Result ι V :=
  match s.upstreamSubscribers[p]? with
  | none => (s, .fail noSuchElement)
  | some u =>
      if u.next.isSome then (s, .fail "next element not consumed")
      else (s.setUpstream p { u with next := some event }).upstreamSubscriberStateChanged 1

/-- The upstream at position `p` destroys the wrapper of its subscriber. -/
def destroyWrapper (s : MergeStream V) (p : Nat) : Result ι V :=
  match s.upstreamSubscribers[p]? with
  | none => (s, .fail noSuchElement)
  | some u => release (s.setUpstream p { u with wrapped := false })

/-- The event as an event of the variant. -/
def inVariant {T : ι → Type} (i : ι) : StatusOr (T i) → StatusOr (Sigma T) :=
  StatusOr.bind fun v => .value ⟨i, v⟩

/-- The methods. The upstream at position `p` is the part with number `p`. -/
abbrev component (T : ι → Type) (publisher : MergePublisher ι) : Operator (Sigma T) ι T where
  State := MergeStream (Sigma T)
  Point := Point (Sigma T)
  start := {}
  call _ s
    | .subscribe => subscribeNext publisher { s with selfLock := true, created := true }
    | .request tokens => s.request tokens
    | .cancel => (s, .goto (.cancelling 0))
  said _ s p i
    | .onSubscribe => s.onSubscribe p
    | .onNext event => s.onNext p (inVariant i event)
    | .destroy => s.destroyWrapper p
  resume _ s
    | .done => (s, .ret)
    | .subscribing => subscribeNext publisher s
    | .confirmed => release { s with created := false }
    | .deliver => s.deliver
    | .consumed event => s.deliverEvent event
    | .delivered => (s, .goto .deliver)
    | .failed => if s.hasEnded then (s, .fail useAfterFree) else (s, .goto (.cancelling 0))
    | .finished =>
        if s.hasEnded then (s, .fail useAfterFree) else release { s with selfLock := false }
    | .cancelling i => s.cancelLoop i
    | .cancelled i => s.cancelNext i
  look s := s.hasEnded

end MergeStream

end RxCppUniq
