import RxCppUniq.Reactive.Generating

/-!
# Async

`AsyncStream`: a stream is produced on one worker and consumed on another. A
worker runs its tasks one at a time, in the order in which they were
scheduled; the two workers run side by side. The stream is subscribed to in a
task of the producer, `OnSubscribe` and every event are passed on in tasks of
the consumer, and what the subscriber asks for goes back in tasks of the
producer.

The upstream is a `GeneratingStream`, whose methods are run on the producer
piece by piece. On the consumer a check and the call it guards are steps of
their own, because the producer may destroy the stream between them.

`AsyncOnNextHelper` moves the subscriber out of the stream for the last
event. A task that was scheduled earlier still has a pointer into the stream.

## Main definitions

* `ProduceTask`, `ConsumeTask`: What is scheduled on the two workers.
* `Consumer`: Where the consumer is in its current task.
* `Async`: The two workers, the stream and the upstream.
* `Async.produce`, `Async.consume`: The next piece of code on either worker.
* `Async.Move`, `Async.Reach`: The steps of a run, and the states that runs
  under given rules reach.

## Theorems

* `Async.Reach.induct`: What holds at the start and is kept by both workers
  holds of every reachable state.
-/

namespace RxCppUniq

open Theory

/-- What `AsyncStream` and its publisher schedule on the producer. -/
inductive ProduceTask where
  | subscribe
  | request (tokens : Nat)
  | cancel
deriving DecidableEq, Repr

/-- What `AsyncStream` schedules on the consumer. The last event comes with
    the subscriber itself, all others go through a pointer to it. -/
inductive ConsumeTask (T : Type) where
  | onSubscribe
  | onNext (event : StatusOr T)
  | last (event : StatusOr T)
deriving DecidableEq, Repr

/-- Where the consumer is in its task. -/
inductive Consumer (T : Type) where
  | idle
  /-- The check that the stream is there has passed, the pointer has not yet
      been followed. -/
  | calling (event : StatusOr T)
  /-- A method of the subscriber is running, for the last event or not. -/
  | handling (last : Bool)
  /-- The subscriber has made a call and the check in `Subscription` has
      passed, the stream has not yet been called. -/
  | passing (call : Call)
deriving DecidableEq, Repr

/-- The fields that change. -/
structure AsyncStream where
  /-- `subscription_state_` was cleared, by the destructor. -/
  hasEnded : Bool := false
  /-- `upstream_subscription_` has a value. -/
  upstreamSubscription : Bool := false
  /-- `subscriber_` was moved into the task for the last event. -/
  subscriberMoved : Bool := false
deriving DecidableEq

/-- The two workers, the stream and the upstream. -/
structure Async (S T : Type) where
  stream : AsyncStream := {}
  upstream : GeneratingStream S
  /-- Where the producer is in the code of the upstream. -/
  producer : Option GeneratingStream.Point := none
  produceOn : List ProduceTask := [.subscribe]
  consumer : Consumer T := .idle
  consumeOn : List (ConsumeTask T) := []
  /-- The events the subscriber has received, in order. -/
  received : List (StatusOr T) := []
  /-- How many there were when `Cancel` returned. -/
  cancelledAt : Option Nat := none
  /-- How often the upstream was destroyed. -/
  deletions : Nat := 0
  /-- The message of a check that has failed. -/
  failed : Option String := none

namespace Async

variable {S T : Type}

def fail (st : Async S T) (msg : String) : Async S T :=
  { st with failed := some msg }

/-- `AsyncStream::OnSubscribe`. -/
def onSubscribe (st : Async S T) : Async S T :=
  if st.stream.upstreamSubscription then st.fail "OnSubscribe already called"
  else
    { st with
      stream := { st.stream with upstreamSubscription := true }
      consumeOn := st.consumeOn ++ [.onSubscribe] }

/-- `AsyncStream::OnNext`, which is `AsyncOnNextHelper`. -/
def onNext (st : Async S T) (event : StatusOr T) : Async S T :=
  if event.isEnd then
    { st with
      stream := { st.stream with subscriberMoved := true }
      consumeOn := st.consumeOn ++ [.last event] }
  else { st with consumeOn := st.consumeOn ++ [.onNext event] }

/-- The calls of the upstream on the stream, which is its subscriber. -/
def signal (st : Async S T) : Signal T → Async S T
  | .onSubscribe => st.onSubscribe
  | .onNext event => st.onNext event
  | .destroy =>
      { st with stream := { st.stream with hasEnded := true }, deletions := st.deletions + 1 }

/-- Carry out what a piece of the upstream's code ended with. It has no parts
    to call. -/
def perform (st : Async S T) : GeneratingStream.Result S T → Async S T
  | (s, .ret) => { st with upstream := s, producer := none }
  | (s, .goto k) => { st with upstream := s, producer := some k }
  | (s, .out o k) => signal { st with upstream := s, producer := some k } o
  | (s, .ask _ _ k) => { st with upstream := s, producer := some k }
  | (_, .make i _ _) => nomatch i
  | (s, .fail msg) => { st with upstream := s }.fail msg

section Producer

variable (generator : S → StatusOr T × S) (initial : S)

abbrev call (s : GeneratingStream S) (c : Call) : GeneratingStream.Result S T :=
  (GeneratingStream.component generator initial).call (fun _ => false) s c

abbrev resume (s : GeneratingStream S) (k : GeneratingStream.Point) :
    GeneratingStream.Result S T :=
  (GeneratingStream.component generator initial).resume (fun _ => false) s k

/-- A task of the producer. A request is dropped where the upstream has
    ended, a cancellation fails there. -/
def runProduce (st : Async S T) : ProduceTask → Async S T
  | .subscribe => st.perform (call generator initial st.upstream .subscribe)
  | .request tokens =>
      if st.upstream.hasEnded then st
      else st.perform (call generator initial st.upstream (.request tokens))
  | .cancel =>
      match subscriptionCheck st.upstream.hasEnded .cancel with
      | some msg => st.fail msg
      | none => st.perform (call generator initial st.upstream .cancel)

/-- The next piece of code on the producer, if there is one. -/
def produce (st : Async S T) : Async S T :=
  match st.producer with
  | some k => st.perform (resume generator initial st.upstream k)
  | none =>
      match st.produceOn with
      | [] => st
      | task :: tasks => runProduce generator initial { st with produceOn := tasks } task

end Producer

/-- `AsyncStream::Request` and `Cancel`, called through a pointer to the
    stream. -/
def schedule (st : Async S T) (call : Call) : Async S T :=
  if st.stream.hasEnded then st.fail useAfterFree
  else if st.stream.upstreamSubscription then
    match call with
    | .subscribe => st
    | .request tokens => { st with produceOn := st.produceOn ++ [.request tokens] }
    | .cancel =>
        { st with produceOn := st.produceOn ++ [.cancel], cancelledAt := some st.received.length }
  else st.fail "OnSubscribe has never been called"

/-- The check a task of the consumer begins with. -/
def runConsume (st : Async S T) : ConsumeTask T → Async S T
  | .onSubscribe =>
      if st.stream.hasEnded then st.fail "stale subscriber"
      else { st with consumer := .handling false }
  | .onNext event =>
      if st.stream.hasEnded then st.fail "unexpected call to stale subscriber"
      else { st with consumer := .calling event }
  | .last event => { st with consumer := .handling true, received := st.received ++ [event] }

/-- The next piece of code on the consumer, if there is one. Where a method of
    the subscriber is running, it makes a call or returns. -/
def consume (call : Option Call) (st : Async S T) : Async S T :=
  match st.consumer with
  | .idle =>
      match st.consumeOn with
      | [] => st
      | task :: tasks => runConsume { st with consumeOn := tasks } task
  | .calling event =>
      if st.stream.subscriberMoved || st.stream.hasEnded then st.fail useAfterFree
      else { st with consumer := .handling false, received := st.received ++ [event] }
  | .handling _ =>
      match call with
      | none => { st with consumer := .idle }
      | some c =>
          match subscriptionCheck st.stream.hasEnded c with
          | some msg => st.fail msg
          | none => { st with consumer := .passing c }
  | .passing c => schedule { st with consumer := .handling false } c

/-- A step of a run: either worker goes on. The consumer's comes with the call
    the running method of the subscriber makes, if it makes one. -/
inductive Move where
  | produce
  | consume (call : Option Call)
deriving DecidableEq

variable (generator : S → StatusOr T × S) (initial : S)

def move (st : Async S T) : Move → Async S T
  | .produce => st.produce generator initial
  | .consume call => st.consume call

/-- The publisher has scheduled its task. -/
abbrev start (initial : S) : Async S T := { upstream := { state := initial } }

/-- The states that runs under the rules reach. After a failed check there
    are no more steps. -/
inductive Reach (allow : Async S T → Move → Prop) : Async S T → Prop where
  | start : Reach allow (start initial)
  | step (st : Async S T) (m : Move) (reached : Reach allow st) (running : st.failed = none)
      (ok : allow st m) : Reach allow (st.move generator initial m)

variable {initial} in
/-- What holds at the start and is kept by every step holds of every
    reachable state. -/
theorem Reach.induct {allow : Async S T → Move → Prop} (Inv : Async S T → Prop)
    (hstart : Inv (Async.start initial))
    (hproduce : ∀ st, Inv st → st.failed = none → allow st .produce →
      Inv (st.produce generator initial))
    (hconsume : ∀ st call, Inv st → st.failed = none → allow st (.consume call) →
      Inv (st.consume call))
    (st : Async S T) (h : Reach generator initial allow st) : Inv st := by
  induction h with
  | start => exact hstart
  | step st m _ running ok ih =>
      cases m with
      | produce => exact hproduce st ih running ok
      | consume call => exact hconsume st call ih running ok

section Play

variable (allow : Async S T → Move → Prop) [∀ st m, Decidable (allow st m)]

/-- Make the moves of a list, one after the other. There is no result when
    one of them cannot be made under the rules. -/
def play (st : Async S T) : List Move → Option (Async S T)
  | [] => some st
  | m :: ms =>
      if st.failed.isNone ∧ allow st m then play (st.move generator initial m) ms else none

/-- What can be played is reachable. -/
theorem reach_of_play (ms : List Move) (st st' : Async S T)
    (hst : Reach generator initial allow st)
    (h : play generator initial allow st ms = some st') : Reach generator initial allow st' := by
  induction ms generalizing st with
  | nil =>
      rw [play, Option.some.injEq] at h
      exact h ▸ hst
  | cons m ms ih =>
      rw [play] at h
      by_cases hok : st.failed.isNone = true ∧ allow st m
      · rw [if_pos hok] at h
        exact ih _ (.step st m hst (Option.isNone_iff_eq_none.mp hok.1) hok.2) h
      · rw [if_neg hok] at h
        exact absurd h (by simp only [reduceCtorEq, not_false_eq_true])

/-- A property that can be evaluated at the end of a playable list of moves
    holds of some reachable state. -/
theorem exists_reach_of_play (ms : List Move) (test : Async S T → Bool)
    (h : (play generator initial allow (start initial) ms).any test = true) :
    ∃ st, Reach generator initial allow st ∧ test st = true := by
  rw [Option.any_eq_true] at h
  rcases h with ⟨st, hplay, htest⟩
  exact ⟨st, reach_of_play generator initial allow ms _ _ .start hplay, htest⟩

end Play

end Async

end RxCppUniq
