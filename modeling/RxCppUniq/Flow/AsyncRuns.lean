import RxCppUniq.Reactive.Async

/-!
# Runs of Async

`AsyncStream` on two workers, over a `GeneratingStream`, with a subscriber
that only requests. The stream is destroyed on the producer as soon as the
last event is scheduled. Whatever the consumer has not got done by then goes
through a stream that is no longer there: an earlier event whose task is
still queued, and a request the running method of the subscriber makes.

So the delivery is faithful in the runs in which the consumer keeps up with
the end of the stream. When the last event is made no other is waiting for
the subscriber, and once the upstream is destroyed the running method makes no
more requests. The invariant follows each event: those received, the one
about to be handed over and those queued are, in this order, what the
generator has made.

## Main definitions

* `Async.sent`: The events on their way and those that have arrived.
* `Async.Requests`: The subscriber only requests.
* `Async.Timely`: The consumer has kept up with the end of the stream.
* `Async.Sound`: The invariant.
* `Async.Faithful`: No check has failed, and the subscriber has received the
  first events of the generator.

## Theorems

* `Async.Sound.produce`, `Async.Sound.consume`: The steps of the two workers.
* `Async.timely_faithful`: The delivery is faithful in timely runs.
* `Async.stale_subscriber`: It is not in others.
-/

namespace RxCppUniq

open Theory

/-- The event that is about to be handed over. -/
@[simp] def Consumer.pending {T : Type} : Consumer T → List (StatusOr T)
  | .idle => []
  | .calling event => [event]
  | .handling _ => []
  | .passing _ => []

/-- The call of the subscriber that is about to reach the stream. -/
@[simp] def Consumer.passing? {T : Type} : Consumer T → Option Call
  | .idle => none
  | .calling _ => none
  | .handling _ => none
  | .passing call => some call

@[simp] def ConsumeTask.event? {T : Type} : ConsumeTask T → Option (StatusOr T)
  | .onSubscribe => none
  | .onNext event => some event
  | .last event => some event

/-- A request of at least one token. -/
@[simp] def Call.isRequest : Call → Bool
  | .subscribe => false
  | .request tokens => 1 ≤ tokens ∧ tokens ≤ kMax
  | .cancel => false

namespace Async

variable {S T : Type}

/-- The events that were sent, in order: those received, the one about to be
    handed over, and those queued. -/
def sent (st : Async S T) : List (StatusOr T) :=
  st.received ++ st.consumer.pending ++ st.consumeOn.filterMap ConsumeTask.event?

/-- The rules of a subscriber that only requests, from `OnSubscribe` and from
    `OnNext` for any event but the last. -/
def Requests (st : Async S T) : Move → Prop
  | .produce => True
  | .consume none => True
  | .consume (some c) => st.consumer = .handling false ∧ c.isRequest = true

instance [DecidableEq T] (st : Async S T) (m : Move) : Decidable (st.Requests m) :=
  match m with
  | .produce => inferInstanceAs (Decidable True)
  | .consume none => inferInstanceAs (Decidable True)
  | .consume (some _) => inferInstanceAs (Decidable (_ ∧ _))

/-- An event is added at the end of those that were sent. -/
theorem sent_append (st : Async S T) (t : ConsumeTask T) (e : StatusOr T) (ht : t.event? = some e) :
    Async.sent { st with consumeOn := st.consumeOn ++ [t] } = st.sent ++ [e] := by
  simp only [Async.sent, List.filterMap_append, List.filterMap_cons, ht, List.filterMap_nil,
    List.append_assoc]

section Timely

variable (generator : S → StatusOr T × S)

/-- The consumer has kept up with what the upstream does at a point: if it
    makes the last event, no other is waiting for the subscriber, and if it is
    destroyed, no call of the subscriber is on its way. -/
def KeptUp (st : Async S T) : GeneratingStream.Point → Prop
  | .done => True
  | .generate =>
      st.upstream.requested.hasRequests = true → (generator st.upstream.state).1.isEnd = true →
        st.consumeOn.isEmpty = true ∧ st.consumer.pending.isEmpty = true
  | .sent isEnd => isEnd = true → st.consumer.passing? = none

/-- The rules of a subscriber that only requests, and only while the stream is
    there, on a consumer that keeps up with its end. -/
def Timely (st : Async S T) : Move → Prop
  | .produce => ∀ k, st.producer = some k → KeptUp generator st k
  | .consume none => True
  | .consume (some c) =>
      st.consumer = .handling false ∧ c.isRequest = true ∧ st.stream.hasEnded = false

instance (st : Async S T) (k : GeneratingStream.Point) : Decidable (KeptUp generator st k) :=
  match k with
  | .done => inferInstanceAs (Decidable True)
  | .generate => inferInstanceAs (Decidable (_ → _ → _ ∧ _))
  | .sent _ => inferInstanceAs (Decidable (_ → _))

instance [DecidableEq T] (st : Async S T) (m : Move) : Decidable (st.Timely generator m) :=
  match m with
  | .produce =>
      match h : st.producer with
      | none => isTrue fun k hk => absurd (h.symm.trans hk) (by simp)
      | some k =>
          decidable_of_iff (KeptUp generator st k)
            ⟨fun hkept k' hk => Option.some.inj (h.symm.trans hk) ▸ hkept, fun hall => hall k h⟩
  | .consume none => inferInstanceAs (Decidable True)
  | .consume (some _) => inferInstanceAs (Decidable (_ ∧ _ ∧ _))

end Timely

variable (generator : S → StatusOr T × S) (initial : S)

/-- No check has failed and no pointer to something destroyed was followed,
    and the subscriber has received the first events of the generator, once
    each and in order, with nothing after the end. -/
def Faithful (st : Async S T) : Prop :=
  st.failed = none ∧ st.received = GeneratingStream.events generator st.received.length initial ∧
    ∀ e ∈ st.received.dropLast, e.isEnd = false

/-- What holds before the stream has been given its upstream. -/
structure Unsubscribed (st : Async S T) : Prop where
  produceOn : st.produceOn = [.subscribe]
  producer : st.producer = none
  consumeOn : st.consumeOn = []
  consumer : st.consumer = .idle
  there : st.stream.subscriberMoved = false

/-- What holds from the last event on: only its task is left to run, and once
    the upstream is destroyed no call of the subscriber is on its way. -/
structure Closing (st : Async S T) : Prop where
  pending : st.consumer.pending = []
  tasks : ∀ t ∈ st.consumeOn, ∃ e, t = .last e
  producer : st.producer = some (.sent true) ∨ st.stream.hasEnded = true
  ended : st.stream.hasEnded = true →
    st.consumer.passing? = none ∧ (st.producer = none ∨ st.producer = some .done)

/-- The invariant of timely runs. -/
structure Sound (st : Async S T) : Prop where
  running : st.failed = none
  fresh : st.stream.upstreamSubscription = false → Unsubscribed st
  once : st.stream.upstreamSubscription = true → .subscribe ∉ st.produceOn
  noCancel : .cancel ∉ st.produceOn
  requests : ∀ c, st.consumer.passing? = some c → c.isRequest = true
  events : st.sent = GeneratingStream.events generator st.sent.length initial
  values : st.stream.subscriberMoved = false → ∀ e ∈ st.sent, e.isEnd = false
  state : st.stream.subscriberMoved = false →
    st.upstream.state = GeneratingStream.after generator st.sent.length initial
  ended : st.upstream.hasEnded = st.stream.hasEnded
  live : st.stream.subscriberMoved = false → st.stream.hasEnded = false
  sent : ∀ b, st.producer = some (.sent b) → st.stream.subscriberMoved = b
  closing : st.stream.subscriberMoved = true → Closing st
  notCancelled : st.cancelledAt = none
  deletions : st.deletions = if st.stream.hasEnded then 1 else 0

namespace Sound

variable {generator initial}

theorem start : Sound generator initial (start initial : Async S T) where
  running := rfl
  fresh _ := ⟨rfl, rfl, rfl, rfl, rfl⟩
  once h := absurd h (by simp only [Bool.false_eq_true, not_false_eq_true])
  noCancel := by simp only [List.mem_cons, reduceCtorEq, List.not_mem_nil, or_self,
    not_false_eq_true]
  requests c hc := absurd hc (Option.some_ne_none c).symm
  events := rfl
  values _ e he := absurd he List.not_mem_nil
  state _ := rfl
  ended := rfl
  live _ := rfl
  sent b h := absurd h (by simp only [reduceCtorEq, not_false_eq_true])
  closing h := absurd h (by simp only [Bool.false_eq_true, not_false_eq_true])
  notCancelled := rfl
  deletions := rfl

variable {st : Async S T} (h : Sound generator initial st)

include h

/-- What the subscriber has received is what the invariant is for. -/
theorem faithful : Faithful generator initial st := by
  have hevents := h.events
  rw [Async.sent, List.append_assoc] at hevents
  have hfirst := GeneratingStream.events_prefix generator _ initial _ _ hevents.symm
  refine ⟨h.running, hfirst, fun e he => ?_⟩
  rw [hfirst] at he
  exact GeneratingStream.isEnd_of_mem_dropLast generator _ initial e he

/-- Something has happened already, so the stream has been subscribed to. -/
theorem subscribed (hne : st.producer ≠ none ∨ st.produceOn ≠ [.subscribe] ∨ st.consumer ≠ .idle ∨
    st.consumeOn ≠ []) : st.stream.upstreamSubscription = true := by
  cases hsub : st.stream.upstreamSubscription with
  | true => rfl
  | false =>
      have hfresh := h.fresh hsub
      rcases hne with hne | hne | hne | hne
      · exact absurd hfresh.producer hne
      · exact absurd hfresh.produceOn hne
      · exact absurd hfresh.consumer hne
      · exact absurd hfresh.consumeOn hne

/-- The subscriber has not been moved out while the upstream is about to make
    an event. -/
theorem not_moved (k : GeneratingStream.Point) (hk : st.producer = some k) (hdone : k ≠ .done)
    (hsent : k ≠ .sent true) : st.stream.subscriberMoved = false := by
  cases hmoved : st.stream.subscriberMoved with
  | false => rfl
  | true =>
      have hclosing := h.closing hmoved
      rcases hclosing.producer with hp | hended
      · exact absurd (Option.some.inj (hk.symm.trans hp)) hsent
      · rcases (hclosing.ended hended).2 with hp | hp
        · exact absurd (hk.symm.trans hp) (by simp only [reduceCtorEq, not_false_eq_true])
        · exact absurd (Option.some.inj (hk.symm.trans hp)) hdone

/-- The upstream is there while it is about to make an event or has just made
    one. -/
theorem not_ended (k : GeneratingStream.Point) (hk : st.producer = some k) (hdone : k ≠ .done) :
    st.stream.hasEnded = false := by
  cases hended : st.stream.hasEnded with
  | false => rfl
  | true =>
      cases hmoved : st.stream.subscriberMoved with
      | false => exact absurd ((h.live hmoved).symm.trans hended) Bool.false_ne_true
      | true =>
          rcases ((h.closing hmoved).ended hended).2 with hp | hp
          · exact absurd (hk.symm.trans hp) (by simp only [reduceCtorEq, not_false_eq_true])
          · exact absurd (Option.some.inj (hk.symm.trans hp)) hdone

/-- The producer goes on without a call of the stream. -/
theorem goes (s : GeneratingStream S) (p : Option GeneratingStream.Point)
    (tasks : List ProduceTask) (hsub : st.stream.upstreamSubscription = true)
    (hstate : s.state = st.upstream.state) (hended : s.hasEnded = st.upstream.hasEnded)
    (hp : ∀ b, p ≠ some (.sent b))
    (hclosing : st.stream.subscriberMoved = true →
      st.stream.hasEnded = true ∧ (p = none ∨ p = some .done))
    (htasks : ∀ t ∈ tasks, t ∈ st.produceOn) :
    Sound generator initial { st with upstream := s, producer := p, produceOn := tasks } where
  running := h.running
  fresh hfalse := absurd (hfalse.symm.trans hsub) Bool.false_ne_true
  once _ hmem := h.once hsub (htasks _ hmem)
  noCancel hmem := h.noCancel (htasks _ hmem)
  requests := h.requests
  events := h.events
  values := h.values
  state hmoved := hstate.trans (h.state hmoved)
  ended := hended.trans h.ended
  live := h.live
  sent b hb := absurd hb (hp b)
  closing hmoved :=
    have hold := h.closing hmoved
    { pending := hold.pending
      tasks := hold.tasks
      producer := Or.inr (hclosing hmoved).1
      ended := fun hend => ⟨(hold.ended hend).1, (hclosing hmoved).2⟩ }
  notCancelled := h.notCancelled
  deletions := h.deletions

/-- The upstream makes an event. -/
theorem onNext (s : GeneratingStream S) (hsub : st.stream.upstreamSubscription = true)
    (hmoved : st.stream.subscriberMoved = false)
    (hstate : s.state = (generator st.upstream.state).2)
    (hended : s.hasEnded = st.upstream.hasEnded)
    (hkept : (generator st.upstream.state).1.isEnd = true →
      st.consumeOn.isEmpty = true ∧ st.consumer.pending.isEmpty = true) :
    Sound generator initial
      (Async.onNext { st with
        upstream := s
        producer := some (.sent (generator st.upstream.state).1.isEnd) }
        (generator st.upstream.state).1) := by
  have hvalues := h.values hmoved
  have hlive := h.live hmoved
  -- The event made is the next one of the generator.
  have hnext := GeneratingStream.events_succ generator st.sent.length initial
    (h.events ▸ hvalues)
  rw [← h.state hmoved, ← h.events] at hnext
  have hlength : (st.sent ++ [(generator st.upstream.state).1]).length = st.sent.length + 1 := by
    rw [List.length_append, List.length_singleton]
  by_cases hend : (generator st.upstream.state).1.isEnd = true
  · rw [Async.onNext, if_pos hend]
    rcases hkept hend with ⟨htasks, hpending⟩
    have hsent := sent_append st (.last (generator st.upstream.state).1) _ rfl
    refine
      { running := h.running
        fresh := fun hfalse => absurd (hfalse.symm.trans hsub) Bool.false_ne_true
        once := h.once
        noCancel := h.noCancel
        requests := h.requests
        events := ?_
        values := fun hno => absurd hno (by simp only [Bool.true_eq_false, not_false_eq_true])
        state := fun hno => absurd hno (by simp only [Bool.true_eq_false, not_false_eq_true])
        ended := hended.trans h.ended
        live := fun hno => absurd hno (by simp only [Bool.true_eq_false, not_false_eq_true])
        sent := ?_
        closing := fun _ => ?_
        notCancelled := h.notCancelled
        deletions := h.deletions }
    · change Async.sent { st with consumeOn := _ } = _
      exact hsent.trans (hnext.symm.trans (by
        change _ = GeneratingStream.events generator
          (Async.sent { st with consumeOn := _ }).length initial
        rw [hsent, hlength]))
    · intro b hb
      rw [hend] at hb
      exact GeneratingStream.Point.sent.inj (Option.some.inj hb)
    · refine ⟨List.isEmpty_iff.mp hpending, fun t ht => ?_, Or.inl (by simp only [hend]), ?_⟩
      · simp only [List.isEmpty_iff.mp htasks, List.nil_append, List.mem_singleton] at ht
        exact ⟨_, ht⟩
      · intro hyes
        exact absurd (hlive.symm.trans hyes) Bool.false_ne_true
  · rw [Async.onNext, if_neg hend]
    have hsent := sent_append st (.onNext (generator st.upstream.state).1) _ rfl
    refine
      { running := h.running
        fresh := fun hfalse => absurd (hfalse.symm.trans hsub) Bool.false_ne_true
        once := h.once
        noCancel := h.noCancel
        requests := h.requests
        events := ?_
        values := fun _ => ?_
        state := fun _ => ?_
        ended := hended.trans h.ended
        live := h.live
        sent := ?_
        closing := fun hyes => absurd (hmoved.symm.trans hyes) Bool.false_ne_true
        notCancelled := h.notCancelled
        deletions := h.deletions }
    · change Async.sent { st with consumeOn := _ } = _
      exact hsent.trans (hnext.symm.trans (by
        change _ = GeneratingStream.events generator
          (Async.sent { st with consumeOn := _ }).length initial
        rw [hsent, hlength]))
    · intro e he
      change e ∈ Async.sent { st with consumeOn := _ } at he
      rw [hsent] at he
      rcases List.mem_append.mp he with he | he
      · exact hvalues e he
      · rw [List.mem_singleton.mp he]
        simpa only [Bool.not_eq_true] using hend
    · change _ = GeneratingStream.after generator
        (Async.sent { st with consumeOn := _ }).length initial
      rw [hsent, hlength, GeneratingStream.after_succ, ← h.state hmoved, hstate]
    · intro b hb
      rw [Bool.not_eq_true] at hend
      rw [hend] at hb
      exact hmoved.trans (GeneratingStream.Point.sent.inj (Option.some.inj hb))

/-- The stream is given its upstream. -/
theorem subscribes (hsub : st.stream.upstreamSubscription = false) :
    Sound generator initial { st with
      producer := some .done, produceOn := []
      stream := { st.stream with upstreamSubscription := true }
      consumeOn := st.consumeOn ++ [.onSubscribe] } :=
  have hfresh := h.fresh hsub
  have hsent : Async.sent { st with consumeOn := st.consumeOn ++ [.onSubscribe] } = st.sent := by
    simp only [Async.sent, List.filterMap_append, List.filterMap_cons, ConsumeTask.event?,
      List.filterMap_nil, List.append_nil]
  { running := h.running
    fresh := fun hfalse => absurd hfalse (by simp only [Bool.true_eq_false, not_false_eq_true])
    once := fun _ => List.not_mem_nil
    noCancel := List.not_mem_nil
    requests := h.requests
    events := (hsent ▸ h.events :)
    values := (hsent ▸ h.values :)
    state := (hsent ▸ h.state :)
    ended := h.ended
    live := h.live
    sent := fun b hb => absurd (Option.some.inj hb)
      (by simp only [reduceCtorEq, not_false_eq_true])
    closing := fun hm => absurd (hfresh.there.symm.trans hm) Bool.false_ne_true
    notCancelled := h.notCancelled
    deletions := h.deletions }

/-- The next piece of code on the producer. -/
theorem produce (hok : Timely generator st .produce) :
    Sound generator initial (st.produce generator initial) := by
  unfold Async.produce
  cases hp : st.producer with
  | some k =>
      have hsub : st.stream.upstreamSubscription = true :=
        h.subscribed (Or.inl (by rw [hp]; exact Option.some_ne_none k))
      cases k with
      | done =>
          refine h.goes st.upstream none st.produceOn hsub rfl rfl (fun b => ?_) (fun hm => ?_)
            fun t ht => ht
          · exact (Option.some_ne_none _).symm
          · rcases (h.closing hm).producer with hsent | hended
            · exact absurd (Option.some.inj (hp.symm.trans hsent))
                (by simp only [reduceCtorEq, not_false_eq_true])
            · exact ⟨hended, Or.inl rfl⟩
      | generate =>
          have hmoved := h.not_moved .generate hp (by simp only [ne_eq, reduceCtorEq,
            not_false_eq_true]) (by simp only [ne_eq, reduceCtorEq, not_false_eq_true])
          simp only [resume, GeneratingStream.generate]
          by_cases hreq : st.upstream.requested.hasRequests = true
          · rw [if_pos hreq]
            rcases RequestBalance.remove_isSome st.upstream.requested
              ((RequestBalance.hasRequests_iff _).mp hreq) with ⟨b, hb⟩
            simp only [hb, perform, signal]
            exact h.onNext _ hsub hmoved rfl rfl (hok .generate hp hreq)
          · rw [if_neg hreq]
            refine h.goes _ none st.produceOn hsub rfl rfl (fun b => ?_) (fun hm => ?_)
              fun t ht => ht
            · exact (Option.some_ne_none _).symm
            · exact absurd (hmoved.symm.trans hm) Bool.false_ne_true
      | sent isEnd =>
          have hended := h.not_ended _ hp (by simp only [ne_eq, reduceCtorEq, not_false_eq_true])
          have hmoved := h.sent isEnd hp
          simp only [resume, GeneratingStream.sent, h.ended, hended,
            Bool.false_eq_true, if_false]
          cases isEnd with
          | false =>
              refine h.goes st.upstream (some .generate) st.produceOn hsub rfl rfl (fun b => ?_)
                (fun hm => absurd (hmoved.symm.trans hm) Bool.false_ne_true) fun t ht => ht
              simp only [ne_eq, Option.some.injEq, reduceCtorEq, not_false_eq_true]
          | true =>
              have hcalls := hok _ hp rfl
              have hclosing := h.closing hmoved
              exact
                { running := h.running
                  fresh := fun hfalse => absurd (hfalse.symm.trans hsub) Bool.false_ne_true
                  once := h.once
                  noCancel := h.noCancel
                  requests := h.requests
                  events := h.events
                  values := h.values
                  state := h.state
                  ended := rfl
                  live := fun hno => absurd (hmoved.symm.trans hno) (by decide)
                  sent := fun b hb => absurd (Option.some.inj hb)
                    (by simp only [reduceCtorEq, not_false_eq_true])
                  closing := fun _ => ⟨hclosing.pending, hclosing.tasks, Or.inr rfl,
                    fun _ => ⟨hcalls, Or.inr rfl⟩⟩
                  notCancelled := h.notCancelled
                  deletions := by
                    have hzero := h.deletions
                    rw [hended] at hzero
                    exact congrArg (· + 1) hzero }
  | none =>
      cases htasks : st.produceOn with
      | nil => exact h
      | cons task tasks =>
          have hmem : ∀ t ∈ tasks, t ∈ st.produceOn := by
            intro t ht
            rw [htasks]
            exact List.mem_cons_of_mem _ ht
          -- Between tasks of the producer the end of the stream is complete.
          have hclosing : st.stream.subscriberMoved = true → st.stream.hasEnded = true := by
            intro hm
            rcases (h.closing hm).producer with hsent | hended
            · exact absurd (hp.symm.trans hsent) (Option.some_ne_none _).symm
            · exact hended
          cases task with
          | subscribe =>
              have hsub : st.stream.upstreamSubscription = false := by
                cases hsub : st.stream.upstreamSubscription with
                | false => rfl
                | true => exact absurd (htasks ▸ List.mem_cons_self) (h.once hsub)
              have hfresh := h.fresh hsub
              have htail : tasks = [] := by
                have hone := hfresh.produceOn
                rw [htasks, List.cons.injEq] at hone
                exact hone.2
              simp only [runProduce, perform, signal,
                Async.onSubscribe, hsub, Bool.false_eq_true, if_false, htail]
              exact h.subscribes hsub
          | request n =>
              have hsub : st.stream.upstreamSubscription = true := by
                refine h.subscribed (Or.inr (Or.inl ?_))
                rw [htasks]
                simp only [ne_eq, List.cons.injEq, reduceCtorEq, false_and, not_false_eq_true]
              simp only [runProduce]
              by_cases hended : st.upstream.hasEnded = true
              · rw [if_pos hended]
                exact h.goes st.upstream none tasks hsub rfl rfl
                  (fun b => (Option.some_ne_none _).symm) (fun hm => ⟨hclosing hm, Or.inl rfl⟩) hmem
              · rw [if_neg hended]
                have hmoved : st.stream.subscriberMoved = true → False := fun hm =>
                  hended (h.ended.trans (hclosing hm))
                change Sound generator initial (perform _ (st.upstream.request n))
                unfold GeneratingStream.request
                by_cases hgen : st.upstream.generating = true
                · rw [if_pos hgen]
                  exact h.goes _ none tasks hsub rfl rfl (fun b => (Option.some_ne_none _).symm)
                    (fun hm => (hmoved hm).elim) hmem
                · rw [if_neg hgen]
                  refine h.goes _ (some .generate) tasks hsub rfl rfl (fun b => ?_)
                    (fun hm => (hmoved hm).elim) hmem
                  simp only [ne_eq, Option.some.injEq, reduceCtorEq, not_false_eq_true]
          | cancel => exact absurd (htasks ▸ List.mem_cons_self) h.noCancel

/-- A stream that has ended has its subscriber moved out. -/
theorem moved_of_ended (hended : st.stream.hasEnded = true) :
    st.stream.subscriberMoved = true := by
  cases hm : st.stream.subscriberMoved with
  | true => rfl
  | false => exact absurd ((h.live hm).symm.trans hended) Bool.false_ne_true

/-- The consumer goes on without a call of the stream. -/
theorem takes (consumer : Consumer T) (tasks : List (ConsumeTask T)) (received : List (StatusOr T))
    (hsub : st.stream.upstreamSubscription = true)
    (hsent : received ++ consumer.pending ++ tasks.filterMap ConsumeTask.event? = st.sent)
    (hrequests : ∀ c, consumer.passing? = some c → c.isRequest = true)
    (hpending : st.stream.subscriberMoved = true → consumer.pending = [])
    (htasks : ∀ t ∈ tasks, t ∈ st.consumeOn)
    (hcalls : st.stream.hasEnded = true → consumer.passing? = none) :
    Sound generator initial
      { st with consumer := consumer, consumeOn := tasks, received := received } where
  running := h.running
  fresh hfalse := absurd (hfalse.symm.trans hsub) Bool.false_ne_true
  once := h.once
  noCancel := h.noCancel
  requests := hrequests
  events := (hsent ▸ h.events :)
  values := (hsent ▸ h.values :)
  state := (hsent ▸ h.state :)
  ended := h.ended
  live := h.live
  sent := h.sent
  closing hm :=
    have hold := h.closing hm
    { pending := hpending hm
      tasks := fun t ht => hold.tasks t (htasks t ht)
      producer := hold.producer
      ended := fun hend => ⟨hcalls hend, (hold.ended hend).2⟩ }
  notCancelled := h.notCancelled
  deletions := h.deletions

/-- The next piece of code on the consumer. -/
theorem consume (call : Option Call) (hok : Timely generator st (.consume call)) :
    Sound generator initial (st.consume call) := by
  have hsent : st.received ++ st.consumer.pending ++ st.consumeOn.filterMap ConsumeTask.event? =
      st.sent := rfl
  -- An earlier event is never left behind when the subscriber is moved out.
  have hlast (t : ConsumeTask T) (ht : t ∈ st.consumeOn) (hne : ∀ e, t ≠ .last e) :
      st.stream.subscriberMoved = false := by
    cases hm : st.stream.subscriberMoved with
    | false => rfl
    | true =>
        rcases (h.closing hm).tasks t ht with ⟨e, he⟩
        exact absurd he (hne e)
  unfold Async.consume
  cases hc : st.consumer with
  | idle =>
      cases htasks : st.consumeOn with
      | nil => exact h
      | cons task tasks =>
          have hmem : ∀ t ∈ tasks, t ∈ st.consumeOn := by
            intro t ht
            rw [htasks]
            exact List.mem_cons_of_mem _ ht
          have hsub : st.stream.upstreamSubscription = true := by
            refine h.subscribed (Or.inr (Or.inr (Or.inr ?_)))
            rw [htasks]
            exact List.cons_ne_nil _ _
          rw [hc, htasks, Consumer.pending, List.append_nil] at hsent
          cases task with
          | onSubscribe =>
              have hm := hlast .onSubscribe (htasks ▸ List.mem_cons_self) (fun e => by
                simp only [ne_eq, reduceCtorEq, not_false_eq_true])
              simp only [runConsume, h.live hm, Bool.false_eq_true, if_false]
              refine h.takes (.handling false) tasks st.received hsub ?_
                (fun c hc => absurd hc (Option.some_ne_none c).symm) (fun _ => rfl) hmem
                fun _ => rfl
              rw [Consumer.pending, List.append_nil, ← hsent]
              rfl
          | onNext e =>
              have hm := hlast (.onNext e) (htasks ▸ List.mem_cons_self) (fun e' => by
                simp only [ne_eq, reduceCtorEq, not_false_eq_true])
              simp only [runConsume, h.live hm, Bool.false_eq_true, if_false]
              refine h.takes (.calling e) tasks st.received hsub ?_
                (fun c hc => absurd hc (Option.some_ne_none c).symm)
                (fun hyes => absurd (hm.symm.trans hyes) Bool.false_ne_true) hmem fun _ => rfl
              rw [Consumer.pending, ← hsent, List.append_assoc]
              rfl
          | last e =>
              refine h.takes (.handling true) tasks (st.received ++ [e]) hsub ?_
                (fun c hc => absurd hc (Option.some_ne_none c).symm) (fun _ => rfl) hmem
                fun _ => rfl
              rw [Consumer.pending, List.append_nil, ← hsent, List.append_assoc]
              rfl
  | calling e =>
      have hsub := h.subscribed (Or.inr (Or.inr (Or.inl (by
        rw [hc]
        simp only [ne_eq, reduceCtorEq, not_false_eq_true]))))
      have hm : st.stream.subscriberMoved = false := by
        cases hm : st.stream.subscriberMoved with
        | false => rfl
        | true =>
            have hpending := (h.closing hm).pending
            rw [hc] at hpending
            exact absurd hpending (List.cons_ne_nil _ _)
      simp only [hm, h.live hm, Bool.or_self, Bool.false_eq_true, if_false]
      refine h.takes (.handling false) st.consumeOn (st.received ++ [e]) hsub ?_
        (fun c hc => absurd hc (Option.some_ne_none c).symm) (fun _ => rfl) (fun t ht => ht)
        fun _ => rfl
      rw [← hsent, hc, Consumer.pending, Consumer.pending, List.append_nil]
  | handling last =>
      have hsub := h.subscribed (Or.inr (Or.inr (Or.inl (by
        rw [hc]
        simp only [ne_eq, reduceCtorEq, not_false_eq_true]))))
      rw [hc, Consumer.pending] at hsent
      cases call with
      | none =>
          exact h.takes .idle st.consumeOn st.received hsub hsent
            (fun c hc => absurd hc (Option.some_ne_none c).symm) (fun _ => rfl)
            (fun t ht => ht) fun _ => rfl
      | some c =>
          simp only [hok.2.2, subscriptionCheck_false]
          refine h.takes (.passing c) st.consumeOn st.received hsub hsent (fun c' hc' => ?_)
            (fun _ => rfl) (fun t ht => ht)
            fun hend => absurd (hok.2.2.symm.trans hend) Bool.false_ne_true
          rw [← Option.some.inj hc']
          exact hok.2.1
  | passing c =>
      have hsub := h.subscribed (Or.inr (Or.inr (Or.inl (by
        rw [hc]
        simp only [ne_eq, reduceCtorEq, not_false_eq_true]))))
      have hrequest := h.requests c (by rw [hc, Consumer.passing?])
      rw [hc, Consumer.pending] at hsent
      have hended : st.stream.hasEnded = false := by
        cases hended : st.stream.hasEnded with
        | false => rfl
        | true =>
            have hnone := ((h.closing (h.moved_of_ended hended)).ended hended).1
            rw [hc] at hnone
            exact absurd hnone (Option.some_ne_none c)
      have htaken := h.takes (.handling false) st.consumeOn st.received hsub hsent
        (fun c hc => absurd hc (Option.some_ne_none c).symm) (fun _ => rfl) (fun t ht => ht)
        fun _ => rfl
      cases c with
      | subscribe => exact absurd hrequest Bool.false_ne_true
      | request n =>
          simp only [schedule, hended, hsub, Bool.false_eq_true, if_false, if_true]
          exact
            { htaken with
              fresh := fun hfalse => absurd (hfalse.symm.trans hsub) Bool.false_ne_true
              once := fun _ hmem => by
                rcases List.mem_append.mp hmem with hmem | hmem
                · exact h.once hsub hmem
                · exact absurd hmem (by simp only [List.mem_singleton, reduceCtorEq,
                    not_false_eq_true])
              noCancel := fun hmem => by
                rcases List.mem_append.mp hmem with hmem | hmem
                · exact h.noCancel hmem
                · exact absurd hmem (by simp only [List.mem_singleton, reduceCtorEq,
                    not_false_eq_true])
              closing := fun hm =>
                have hold := htaken.closing hm
                ⟨hold.pending, hold.tasks, hold.producer, hold.ended⟩ }
      | cancel => exact absurd hrequest Bool.false_ne_true

end Sound

/-- In timely runs every state is sound. -/
theorem sound_reach (st : Async S T) (h : Reach generator initial (Timely generator) st) :
    Sound generator initial st :=
  h.induct generator (Sound generator initial) Sound.start
    (fun _ hst _ hok => hst.produce hok) (fun _ call hst _ hok => hst.consume call hok) st

/-- As long as the consumer keeps up with the end of the stream the delivery
    is faithful, however the workers are interleaved and whatever the
    subscriber requests. -/
theorem timely_faithful (st : Async S T) (h : Reach generator initial (Timely generator) st) :
    Faithful generator initial st :=
  (sound_reach generator initial st h).faithful

/-- Two values and the end. -/
def couple : Nat → StatusOr Nat × Nat
  | 0 => (.value 7, 1)
  | 1 => (.value 8, 2)
  | s => (.done, s)

/-- The subscriber asks for two values at once. Both are on their way before it
    gets the first, and with the second it asks for the end. -/
def steadyMoves : List Move :=
  [ .produce, .produce,
    .consume none, .consume (some (.request 2)), .consume none, .consume none,
    .produce, .produce, .produce, .produce, .produce, .produce,
    .consume none, .consume none, .consume none,
    .consume none, .consume none, .consume (some (.request 1)), .consume none, .consume none,
    .produce, .produce, .produce, .produce, .consume none ]

theorem timely_faithful_couple : ∃ st : Async Nat Nat,
    st.received = [.value 7, .value 8, .done] ∧ Faithful couple 0 st := by
  rcases exists_reach_of_play couple 0 (Timely couple) steadyMoves
    (fun st => st.received == [.value 7, .value 8, .done]) (by decide +kernel)
    with ⟨st, hst, htest⟩
  exact ⟨st, eq_of_beq htest, timely_faithful couple 0 st hst⟩

/-- One value and the end. -/
def single : Nat → StatusOr Nat × Nat
  | 0 => (.value 7, 1)
  | s => (.done, s)

/-- The subscriber asks for two events at once. The producer makes both, and
    with the second the stream is destroyed before the consumer gets to the
    first. -/
def staleMoves : List Move :=
  [ .produce, .produce,
    .consume none, .consume (some (.request 2)), .consume none, .consume none,
    .produce, .produce, .produce, .produce, .produce, .produce, .consume none ]

/-- Without keeping up the subscriber is lost together with the stream. -/
theorem stale_subscriber : ∃ st : Async Nat Nat, Reach single 0 Requests st ∧
    st.failed = some "unexpected call to stale subscriber" ∧ st.received = [] ∧
      ¬ Faithful single 0 st := by
  rcases exists_reach_of_play single 0 Requests staleMoves
    (fun st => st.failed == some "unexpected call to stale subscriber" && st.received == [])
    (by decide +kernel) with ⟨st, hst, htest⟩
  rw [Bool.and_eq_true, beq_iff_eq, beq_iff_eq] at htest
  refine ⟨st, hst, htest.1, htest.2, ?_⟩
  intro hfaithful
  exact absurd (htest.1.symm.trans hfaithful.1) (Option.some_ne_none _)

end Async

end RxCppUniq
