import RxCppUniq.Flow.AsyncRuns

/-!
# Cancellation in Async

A subscriber of `AsyncStream` that requests and then cancels. The
cancellation is a task of the producer, and runs after the requests that are
queued there. Events these still bring about reach the subscriber, or meet a
stream that is no longer there; and if the last event is among them, the
cancellation itself fails.

So a cancellation is safe when nothing the subscriber has asked for is still
on its way. Then the producer does nothing more until it gets to the task,
which destroys the upstream. The invariant has three stages: before the
subscriber cancels, while the call is on its way to the stream, and after it
has returned.

## Main definitions

* `Async.Cancels`: The subscriber may cancel, once.
* `Async.Settled`: No event that was requested is on its way.
* `Async.QuietCancels`: The rules under which a cancellation is safe.
* `Async.CancelSafe`: What a safe cancellation is.
* `Async.Calm`, `Async.Gone`: The upstream before and after the cancellation.
* `Async.Stages`: The invariant.

## Theorems

* `Async.quiet_cancel_safe`: A cancellation that finds nothing on its way is
  safe.
* `Async.cancel_after_end`: Another one need not be.
-/

namespace RxCppUniq

open Theory

namespace Async

variable {S T : Type}

/-- The rules of a subscriber that requests, and then cancels once, at a
    moment when the stream has not ended. -/
def Cancels (st : Async S T) : Move → Prop
  | .produce => True
  | .consume none => True
  | .consume (some c) =>
      st.consumer = .handling false ∧ st.cancelledAt = none ∧
        (c.isRequest = true ∨ c = .cancel ∧ st.stream.hasEnded = false)

instance [DecidableEq T] (st : Async S T) (m : Move) : Decidable (st.Cancels m) :=
  match m with
  | .produce => inferInstanceAs (Decidable True)
  | .consume none => inferInstanceAs (Decidable True)
  | .consume (some _) => inferInstanceAs (Decidable (_ ∧ _ ∧ _))

/-- No event that was requested is on its way: every request has reached the
    upstream and was served, and the subscriber has received all that was
    made, which the end is not part of. -/
structure Settled (st : Async S T) : Prop where
  there : st.stream.subscriberMoved = false
  consumeOn : st.consumeOn.isEmpty = true
  produceOn : st.produceOn.isEmpty = true
  served : st.upstream.requested.hasRequests = false

instance (st : Async S T) : Decidable (Settled st) :=
  decidable_of_iff (st.stream.subscriberMoved = false ∧ st.consumeOn.isEmpty = true ∧
      st.produceOn.isEmpty = true ∧ st.upstream.requested.hasRequests = false)
    ⟨fun h => ⟨h.1, h.2.1, h.2.2.1, h.2.2.2⟩, fun h => ⟨h.1, h.2, h.3, h.4⟩⟩

/-- The rules of a subscriber that cancels only when nothing is on its way, on
    a consumer that keeps up with the end of the stream. -/
def QuietCancels (generator : S → StatusOr T × S) (st : Async S T) : Move → Prop
  | .produce => Timely generator st .produce
  | .consume none => True
  | .consume (some c) =>
      st.consumer = .handling false ∧ st.cancelledAt = none ∧ st.stream.hasEnded = false ∧
        (c.isRequest = true ∨ c = .cancel ∧ Settled st)

instance [DecidableEq T] (generator : S → StatusOr T × S) (st : Async S T) (m : Move) :
    Decidable (st.QuietCancels generator m) :=
  match m with
  | .produce => inferInstanceAs (Decidable (Timely generator st .produce))
  | .consume none => inferInstanceAs (Decidable True)
  | .consume (some _) => inferInstanceAs (Decidable (_ ∧ _ ∧ _ ∧ _))

/-- Nothing is left to do on either worker. -/
structure Quiescent (st : Async S T) : Prop where
  producer : st.producer = none
  produceOn : st.produceOn = []
  consumer : st.consumer = .idle
  consumeOn : st.consumeOn = []

/-- No check has failed on either worker, no event was received after `Cancel`
    had returned, and the upstream is destroyed once: never twice, and when
    all is done after a cancellation it has been. -/
structure CancelSafe (st : Async S T) : Prop where
  running : st.failed = none
  silent : ∀ n, st.cancelledAt = some n → st.received.length = n
  atMostOnce : st.deletions ≤ 1
  once : st.cancelledAt ≠ none → Quiescent st → st.deletions = 1

/-- Nothing is on its way, and the producer has these tasks left. -/
structure Calm (tasks : List ProduceTask) (st : Async S T) : Prop where
  running : st.failed = none
  there : st.stream.subscriberMoved = false
  live : st.stream.hasEnded = false
  upstreamLive : st.upstream.hasEnded = false
  subscribed : st.stream.upstreamSubscription = true
  consumeOn : st.consumeOn = []
  produceOn : st.produceOn = tasks
  served : st.upstream.requested.hasRequests = false
  producer : st.producer ≠ some (.sent true)
  deletions : st.deletions = 0

/-- The upstream was destroyed, and nothing is on its way. -/
structure Gone (st : Async S T) : Prop where
  running : st.failed = none
  ended : st.upstream.hasEnded = true
  consumeOn : st.consumeOn = []
  produceOn : st.produceOn = []
  producer : st.producer = none ∨ st.producer = some .done
  deletions : st.deletions = 1

variable (generator : S → StatusOr T × S) (initial : S)

/-- The stages of a run: before the subscriber cancels, while the call is on
    its way to the stream, and after it has returned. -/
inductive Stages (st : Async S T) : Prop where
  | before (sound : Sound generator initial st)
  | cancelling (consumer : st.consumer = .passing .cancel) (calm : Calm [] st)
      (notYet : st.cancelledAt = none)
  | after (consumer : st.consumer = .idle ∨ ∃ last, st.consumer = .handling last)
      (upstream : Calm [.cancel] st ∨ Gone st)
      (silent : st.cancelledAt = some st.received.length)

/-- The consumer's side of two states is the same. -/
structure SameSide (st next : Async S T) : Prop where
  consumer : next.consumer = st.consumer
  received : next.received = st.received
  cancelledAt : next.cancelledAt = st.cancelledAt

section Stages

variable {generator initial} {tasks : List ProduceTask} {st : Async S T}

/-- While nothing is on its way the producer only finishes what it is in. -/
theorem Calm.runs (generator : S → StatusOr T × S) (initial : S) (h : Calm tasks st)
    (k : GeneratingStream.Point) (hk : st.producer = some k) :
    Calm tasks (st.produce generator initial) ∧ SameSide st (st.produce generator initial) := by
  unfold produce
  rw [hk]
  cases k with
  | done =>
      refine ⟨⟨h.running, h.there, h.live, h.upstreamLive, h.subscribed, h.consumeOn, h.produceOn,
        h.served, ?_, h.deletions⟩, rfl, rfl, rfl⟩
      exact (Option.some_ne_none _).symm
  | generate =>
      simp only [resume, GeneratingStream.generate, h.served, Bool.false_eq_true, if_false]
      refine ⟨⟨h.running, h.there, h.live, h.upstreamLive, h.subscribed, h.consumeOn, h.produceOn,
        h.served, ?_, h.deletions⟩, rfl, rfl, rfl⟩
      exact (Option.some_ne_none _).symm
  | sent isEnd =>
      cases isEnd with
      | true => exact absurd hk h.producer
      | false =>
          simp only [resume, GeneratingStream.sent, h.upstreamLive, Bool.false_eq_true, if_false]
          refine ⟨⟨h.running, h.there, h.live, h.upstreamLive, h.subscribed, h.consumeOn,
            h.produceOn, h.served, ?_, h.deletions⟩, rfl, rfl, rfl⟩
          simp only [perform, ne_eq, Option.some.injEq, reduceCtorEq, not_false_eq_true]

/-- The producer gets to the cancellation. -/
theorem Calm.cancels (h : Calm [.cancel] st) (hp : st.producer = none) :
    Gone (st.produce generator initial) ∧ SameSide st (st.produce generator initial) := by
  unfold produce
  rw [hp, h.produceOn]
  simp only [runProduce, h.upstreamLive, subscriptionCheck_false]
  refine ⟨⟨h.running, rfl, h.consumeOn, rfl, Or.inr rfl, ?_⟩, rfl, rfl, rfl⟩
  exact congrArg (· + 1) h.deletions

/-- Nothing happens any more on the producer. -/
theorem Gone.runs (h : Gone st) :
    Gone (st.produce generator initial) ∧ SameSide st (st.produce generator initial) := by
  unfold produce
  rcases h.producer with hp | hp
  · rw [hp, h.produceOn]
    exact ⟨h, rfl, rfl, rfl⟩
  · rw [hp]
    exact ⟨⟨h.running, h.ended, h.consumeOn, h.produceOn, Or.inl rfl, h.deletions⟩, rfl, rfl, rfl⟩

/-- What the producer does after the cancellation has returned. -/
theorem Stages.goesOn {next : Async S T}
    (consumer : st.consumer = .idle ∨ ∃ last, st.consumer = .handling last)
    (silent : st.cancelledAt = some st.received.length)
    (h : (Calm [.cancel] next ∨ Gone next) ∧ SameSide st next) :
    Stages generator initial next := by
  rcases h with ⟨hup, hsame⟩
  refine .after ?_ hup ?_
  · rw [hsame.consumer]
    exact consumer
  · rw [hsame.cancelledAt, hsame.received]
    exact silent

/-- The next piece of code on the producer. -/
theorem Stages.produce (h : Stages generator initial st)
    (hok : QuietCancels generator st .produce) :
    Stages generator initial (st.produce generator initial) := by
  cases h with
  | before sound => exact .before (sound.produce hok)
  | cancelling consumer calm notYet =>
      cases hp : st.producer with
      | some k =>
          rcases calm.runs generator initial k hp with ⟨hcalm, hsame⟩
          exact .cancelling (hsame.consumer.trans consumer) hcalm
            (hsame.cancelledAt.trans notYet)
      | none =>
          have hsame : st.produce generator initial = st := by
            unfold Async.produce
            rw [hp, calm.produceOn]
          rw [hsame]
          exact .cancelling consumer calm notYet
  | after consumer upstream silent =>
      rcases upstream with calm | gone
      · cases hp : st.producer with
        | some k =>
            exact .goesOn consumer silent ((calm.runs generator initial k hp).imp_left Or.inl)
        | none => exact .goesOn consumer silent ((calm.cancels hp).imp_left Or.inr)
      · exact .goesOn consumer silent (gone.runs.imp_left Or.inr)

/-- The subscriber cancels when nothing is on its way. -/
theorem Sound.cancel (h : Sound generator initial st) (hconsumer : st.consumer = .handling false)
    (hlive : st.stream.hasEnded = false) (hsettled : Settled st) :
    Stages generator initial (st.consume (some .cancel)) := by
  have hsub := h.subscribed (Or.inr (Or.inr (Or.inl (by
    rw [hconsumer]
    simp only [ne_eq, reduceCtorEq, not_false_eq_true]))))
  unfold Async.consume
  simp only [hconsumer, hlive, subscriptionCheck_false]
  refine .cancelling rfl ?_ h.notCancelled
  exact
    { running := h.running
      there := hsettled.there
      live := hlive
      upstreamLive := h.ended.trans hlive
      subscribed := hsub
      consumeOn := List.isEmpty_iff.mp hsettled.consumeOn
      produceOn := List.isEmpty_iff.mp hsettled.produceOn
      served := hsettled.served
      producer := fun hp => absurd (hsettled.there.symm.trans (h.sent true hp)) Bool.false_ne_true
      deletions := by
        have hcount := h.deletions
        rw [hlive] at hcount
        exact hcount }

/-- The call reaches the stream, which schedules it. -/
theorem Calm.schedules (h : Calm [] st) (hconsumer : st.consumer = .passing .cancel)
    (call : Option Call) : Stages generator initial (st.consume call) := by
  unfold Async.consume
  simp only [hconsumer, schedule, h.live, h.subscribed, Bool.false_eq_true, if_false, if_true,
    h.produceOn, List.nil_append]
  refine .after (Or.inr ⟨false, rfl⟩) (Or.inl ?_) rfl
  exact ⟨h.running, h.there, h.live, h.upstreamLive, h.subscribed, h.consumeOn, rfl, h.served,
    h.producer, h.deletions⟩

/-- The next piece of code on the consumer. -/
theorem Stages.consume (h : Stages generator initial st) (call : Option Call)
    (hok : QuietCancels generator st (.consume call)) :
    Stages generator initial (st.consume call) := by
  cases h with
  | before sound =>
      cases call with
      | none => exact .before (sound.consume none trivial)
      | some c =>
          rcases hok with ⟨hconsumer, -, hlive, hrequest | ⟨rfl, hsettled⟩⟩
          · exact .before (sound.consume (some c) ⟨hconsumer, hrequest, hlive⟩)
          · exact sound.cancel hconsumer hlive hsettled
  | cancelling consumer calm notYet => exact calm.schedules consumer call
  | after consumer upstream silent =>
      have hnil : st.consumeOn = [] := by
        rcases upstream with calm | gone
        · exact calm.consumeOn
        · exact gone.consumeOn
      unfold Async.consume
      rcases consumer with hc | ⟨last, hc⟩
      · rw [hc, hnil]
        exact .after (Or.inl hc) upstream silent
      · cases call with
        | none =>
            rw [hc]
            refine .after (Or.inl rfl) ?_ silent
            rcases upstream with calm | gone
            · exact Or.inl ⟨calm.running, calm.there, calm.live, calm.upstreamLive,
                calm.subscribed, calm.consumeOn, calm.produceOn, calm.served, calm.producer,
                calm.deletions⟩
            · exact Or.inr ⟨gone.running, gone.ended, gone.consumeOn, gone.produceOn,
                gone.producer, gone.deletions⟩
        | some c => exact absurd (silent.symm.trans hok.2.1) (Option.some_ne_none _)

/-- The stages are what makes a cancellation safe. -/
theorem Stages.safe (h : Stages generator initial st) : CancelSafe st := by
  cases h with
  | before sound =>
      refine ⟨sound.running, fun n hn => ?_, ?_, fun hne _ => absurd sound.notCancelled hne⟩
      · exact absurd (hn.symm.trans sound.notCancelled) (Option.some_ne_none n)
      · rw [sound.deletions]
        by_cases hended : st.stream.hasEnded = true
        · simp only [if_pos hended, Nat.le_refl]
        · simp only [if_neg hended, Nat.zero_le]
  | cancelling consumer calm notYet =>
      refine ⟨calm.running, fun n hn => ?_, ?_, fun hne _ => absurd notYet hne⟩
      · exact absurd (hn.symm.trans notYet) (Option.some_ne_none n)
      · rw [calm.deletions]
        exact Nat.zero_le 1
  | after consumer upstream silent =>
      have hsilent : ∀ n, st.cancelledAt = some n → st.received.length = n :=
        fun n hn => Option.some.inj (silent.symm.trans hn)
      rcases upstream with calm | gone
      · refine ⟨calm.running, hsilent, calm.deletions ▸ Nat.zero_le 1, fun _ hquiet => ?_⟩
        exact absurd (calm.produceOn.symm.trans hquiet.produceOn) (List.cons_ne_nil _ _)
      · exact ⟨gone.running, hsilent, Nat.le_of_eq gone.deletions, fun _ _ => gone.deletions⟩

end Stages

/-- One event at a time, and a cancellation after the first has arrived. -/
def quietMoves : List Move :=
  [ .produce, .produce,
    .consume none, .consume (some (.request 1)), .consume none, .consume none,
    .produce, .produce, .produce, .produce, .consume none, .consume none,
    .consume (some .cancel), .consume none, .produce, .produce, .consume none ]

/-- The subscriber asks for two events and cancels when it has the first. The
    producer makes the last event before it gets to the cancellation. -/
def lateCancelMoves : List Move :=
  [ .produce, .produce,
    .consume none, .consume (some (.request 2)), .consume none, .consume none,
    .produce, .produce, .consume none, .consume none,
    .consume (some .cancel), .consume none,
    .produce, .produce, .produce, .produce, .produce ]

end Async

end RxCppUniq
