import RxCppUniq.Reactive.Async
import RxCppUniq.Reactive.Chaining
import RxCppUniq.Theory.Crew

/-!
# Chains of Async

A pipeline with any number of `Async` hops: a `GeneratingStream`, then one
`AsyncStream` after the other, where each consumes on the worker on which the
next one produces. In front of each hop, and behind the last one, is a
sequence of `Map` stages whose functions return only values. The workers need
not be different ones. The subscriber is the one of
`Subscriber::MakeWithFlowControl`, which requests one event at a time.

The stages in front of a hop are owned by the same stream as the hop's own
stream and are destroyed with it, so they form one group. Group `j` is hop `j`
with the maps in front of it. Group `0` is the generator, and the group behind
the last hop is the maps there and the subscriber.

As in `Async`, the code is cut where another worker may get in between: at the
checks, at the calls they guard, and at the calls between groups.

## Main definitions

* `Maps`: A sequence of `Map` stages.
* `AsyncChain`: The pipeline.
* `AsyncChain.Task`, `AsyncChain.Frame`: What is scheduled on the workers, and
  the calls they carry out.
* `AsyncChain.code`: The pieces of code.
* `AsyncChain.start`: The crew after the pipeline was subscribed to.

## Theorems

* `Maps.isEnd_apply`: Maps keep ends and values apart.
-/

namespace RxCppUniq

open Theory

/-- `Map` stages one behind the other, with functions that return values. -/
inductive Maps : Type → Type → Type 1 where
  | nil {A : Type} : Maps A A
  | cons {A B C : Type} (func : A → B) (rest : Maps B C) : Maps A C

namespace Maps

variable {A B : Type}

def isEmpty : Maps A B → Bool
  | .nil => true
  | .cons _ _ => false

/-- What becomes of an event on its way through the stages. -/
def apply {A B : Type} : Maps A B → StatusOr A → StatusOr B
  | .nil, event => event
  | .cons func rest, event => rest.apply (event.bind fun v => .value (func v))

/-- What becomes of a request on its way back. -/
def requestMapping {A B : Type} : Maps A B → Nat → Nat
  | .nil, tokens => tokens
  | .cons func rest, tokens =>
      (ChainingFunc.map fun v => .value (func v)).requestMapping (rest.requestMapping tokens)

@[simp] theorem requestMapping_eq (maps : Maps A B) (tokens : Nat) :
    maps.requestMapping tokens = tokens := by
  induction maps with
  | nil => rfl
  | cons func rest ih => exact ih

@[simp] theorem isEnd_apply (maps : Maps A B) (event : StatusOr A) :
    (maps.apply event).isEnd = event.isEnd := by
  induction maps with
  | nil => rfl
  | cons func rest ih =>
      rw [apply, ih]
      cases event with
      | value v => rfl
      | status s h => rfl

end Maps

/-- A pipeline over `hops` hops. Elements of type `Elem j` come out of group
    `j`, before the next maps. Hop `j + 1` is produced on worker `j` and
    consumed on worker `j + 1`. -/
structure AsyncChain (S W : Type) where
  hops : Nat
  one_le_hops : 1 ≤ hops
  Elem : Nat → Type
  generator : S → StatusOr (Elem 0) × S
  initial : S
  maps : (j : Nat) → Maps (Elem j) (Elem (j + 1))
  worker : Nat → W

namespace AsyncChain

/-- What is scheduled on the workers, with the number of the hop that
    schedules it. -/
inductive Task (Elem : Nat → Type) where
  | subscribe (j : Nat)
  | onSubscribe (j : Nat)
  | request (j tokens : Nat)
  | onNext (j : Nat) (event : StatusOr (Elem j))
  /-- The last event, with the subscriber. -/
  | last (j : Nat) (event : StatusOr (Elem j))

/-- The pieces of code after the first one of a task. -/
inductive Frame (Elem : Nat → Type) where
  /-- Group `j` calls `OnSubscribe` of its subscriber. -/
  | onSubscribe (j : Nat)
  /-- The check that stream `j` is there has passed, the pointer to its
      subscriber has not yet been followed. -/
  | calling (j : Nat) (event : StatusOr (Elem j))
  /-- Group `j` calls `OnNext` of its subscriber, the first of the maps if
      there are any. -/
  | onNext (j : Nat) (event : StatusOr (Elem j))
  /-- The event has come through the maps. -/
  | arriving (j : Nat) (event : StatusOr (Elem (j + 1)))
  /-- The subscriber of group `j` calls `Request` of its subscription. -/
  | request (j tokens : Nat)
  /-- The checks in `Subscription` have passed, the stream of group `j` has not
      yet been called. -/
  | passing (j tokens : Nat)
  /-- The generator goes on. -/
  | generate (k : GeneratingStream.Point)
  /-- Group `j` is destroyed. -/
  | destroy (j : Nat)

variable {S W : Type}

/-- The fields of the streams, and what the subscriber has received. Where a
    group has maps, `upstreamSubscription` of its number also stands for their
    `base_subscription_`, which is set on the same way. -/
structure State (c : AsyncChain S W) where
  generator : GeneratingStream S
  stream : Nat → AsyncStream := fun _ => {}
  received : List (StatusOr (c.Elem (c.hops + 1))) := []

namespace State

variable {c : AsyncChain S W}

/-- The fields of one stream are changed. -/
def setStream (s : State c) (j : Nat) (stream : AsyncStream) : State c :=
  { s with stream := Function.update s.stream j stream }

@[simp] theorem stream_setStream_self (s : State c) (j : Nat) (stream : AsyncStream) :
    (s.setStream j stream).stream j = stream :=
  Function.update_self ..

theorem stream_setStream_of_ne (s : State c) (i j : Nat) (stream : AsyncStream) (h : i ≠ j) :
    (s.setStream j stream).stream i = s.stream i :=
  Function.update_of_ne h ..

/-- `has_ended()` of the subscription to the last stream of a group. -/
def hasEnded (s : State c) : Nat → Bool
  | 0 => s.generator.hasEnded
  | j + 1 => (s.stream (j + 1)).hasEnded

/-- The checks on the way of a request from the subscriber of group `j` to the
    stream of that group: those of the maps in between, if there are any, and
    that of the subscription to the stream. -/
def requestCheck (s : State c) (j tokens : Nat) : Option String :=
  if (c.maps j).isEmpty then subscriptionCheck (s.hasEnded j) (.request tokens)
  else
    match subscriptionCheck (s.stream (j + 1)).hasEnded (.request tokens) with
    | some msg => some msg
    | none =>
        if (s.stream (j + 1)).upstreamSubscription then
          subscriptionCheck (s.hasEnded j) (.request tokens)
        else some "OnSubscribe has never been called"

end State

/-- A stream is destroyed together with its subscriber, the next group, unless
    that was moved out. There are `n` groups left. -/
def destroy : Nat → Nat → (Nat → AsyncStream) → Nat → AsyncStream
  | 0, _, stream => stream
  | n + 1, j, stream =>
      let ended := Function.update stream j { stream j with hasEnded := true }
      if (stream j).subscriberMoved then ended else destroy n (j + 1) ended

section Code

variable (c : AsyncChain S W)

abbrev Result := Effect W (Task c.Elem) (Frame c.Elem) (State c)

/-- Carry out what a piece of the generator's code ended with. It calls the
    stream of the first hop through the maps in front of it. -/
def perform (s : State c) : GeneratingStream.Result S (c.Elem 0) → Result c
  | (g, .ret) => .go { s with generator := g } [] none
  | (g, .goto k) => .go { s with generator := g } [.generate k] none
  | (g, .out .onSubscribe k) => .go { s with generator := g } [.onSubscribe 0, .generate k] none
  | (g, .out (.onNext event) k) =>
      .go { s with generator := g } [.onNext 0 event, .generate k] none
  | (g, .out .destroy k) => .go { s with generator := g } [.destroy 1, .generate k] none
  | (g, .ask _ _ k) => .go { s with generator := g } [.generate k] none
  | (_, .make i _ _) => nomatch i
  | (_, .fail msg) => .fail msg

/-- The first piece of a task. -/
def run (s : State c) : Task c.Elem → Result c
  | .subscribe j =>
      -- The stream of the hop is made and its publisher subscribed to.
      if j ≤ 1 then perform c s (Async.call c.generator c.initial s.generator .subscribe)
      else .go s [] (some (c.worker (j - 2), .subscribe (j - 1)))
  | .onSubscribe j =>
      if (s.stream j).hasEnded then .fail "stale subscriber" else .go s [.onSubscribe j] none
  | .request j tokens =>
      if (if (c.maps (j - 1)).isEmpty then s.hasEnded (j - 1) else (s.stream j).hasEnded) then
        .go s [] none
      else .go s [.request (j - 1) tokens] none
  | .onNext j event =>
      if (s.stream j).hasEnded then .fail "unexpected call to stale subscriber"
      else .go s [.calling j event] none
  | .last j event => .go s [.onNext j event, .destroy (j + 1)] none

/-- `OnSubscribe` of group `j`: `AsyncStream::OnSubscribe` behind the maps, or
    behind the last hop the first request of the subscriber. -/
def onSubscribe (s : State c) (j : Nat) : Result c :=
  let s' := s.setStream j { s.stream j with upstreamSubscription := true }
  if j = c.hops + 1 then .go s' [.request (j - 1) 1] none
  else if (s.stream j).upstreamSubscription then .fail "OnSubscribe already called"
  else .go s' [] (some (c.worker j, .onSubscribe j))

/-- `AsyncStream::OnNext`, which is `AsyncOnNextHelper`. -/
def onNext (s : State c) (j : Nat) (event : StatusOr (c.Elem j)) : Result c :=
  if event.isEnd then
    .go (s.setStream j { s.stream j with subscriberMoved := true }) []
      (some (c.worker j, .last j event))
  else .go s [] (some (c.worker j, .onNext j event))

/-- `OnNext` of the subscriber. Unless the event is the last one the next one
    is requested. -/
def receive (s : State c) (event : StatusOr (c.Elem (c.hops + 1))) : Result c :=
  .go { s with received := s.received ++ [event] }
    (if event.isEnd then [] else [.request c.hops 1]) none

/-- `Request` of the stream of group `j`. -/
def request (s : State c) (tokens : Nat) : Nat → Result c
  | 0 => perform c s (Async.call c.generator c.initial s.generator (.request tokens))
  | j + 1 =>
      if (s.stream (j + 1)).upstreamSubscription then
        .go s [] (some (c.worker j, .request (j + 1) tokens))
      else .fail "OnSubscribe has never been called"

/-- The other pieces. Code of a group that was destroyed does not run. -/
def exec (s : State c) : Frame c.Elem → Result c
  | .onSubscribe j =>
      if (s.stream (j + 1)).hasEnded then .fail useAfterFree else onSubscribe c s (j + 1)
  | .calling j event =>
      if (s.stream j).subscriberMoved || (s.stream j).hasEnded then .fail useAfterFree
      else .go s [.onNext j event] none
  | .onNext j event =>
      if (s.stream (j + 1)).hasEnded then .fail useAfterFree
      else .go s [.arriving j ((c.maps j).apply event)] none
  | .arriving j event =>
      if (s.stream (j + 1)).hasEnded then .fail useAfterFree
      else if h : j = c.hops then receive c s (h ▸ event)
      else onNext c s (j + 1) event
  | .request j tokens =>
      match s.requestCheck j tokens with
      | some msg => .fail msg
      | none => .go s [.passing j ((c.maps j).requestMapping tokens)] none
  | .passing j tokens => if s.hasEnded j then .fail useAfterFree else request c s tokens j
  | .generate k => perform c s (Async.resume c.generator c.initial s.generator k)
  | .destroy j => .go { s with stream := destroy (c.hops + 2 - j) j s.stream } [] none

abbrev code : Code W (Task c.Elem) (Frame c.Elem) (State c) where
  run := run c
  exec := exec c

abbrev Workers := Crew W (Task c.Elem) (Frame c.Elem) (State c)

variable [DecidableEq W]

/-- The publisher of the last hop has scheduled its task. -/
def start : Workers c where
  state := { generator := { state := c.initial } }
  queue := Function.update (fun _ => []) (c.worker (c.hops - 1)) [.subscribe c.hops]
  stack _ := []

theorem queue_start (v : W) :
    (start c).queue v = if v = c.worker (c.hops - 1) then [.subscribe c.hops] else [] := by
  by_cases hv : v = c.worker (c.hops - 1)
  · rw [if_pos hv]
    simp only [start, hv, Function.update_self]
  · rw [if_neg hv]
    simp only [start, ne_eq, hv, not_false_eq_true, Function.update_of_ne]

abbrev Reach (crew : Workers c) : Prop :=
  Crew.Reach (code c) (start c) crew

end Code

end AsyncChain

end RxCppUniq
