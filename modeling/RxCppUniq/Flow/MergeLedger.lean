import RxCppUniq.Flow.MergeBooks

/-!
# Merge Loses and Invents Nothing

What the books of `MergeStream` say between the rounds of its loop, for any
number of upstreams with strict flow control, in whatever order their events
arrive. A round that is under way has taken a value and not delivered it yet.

The number of delivered values is bounded by the demand unless the demand was
infinite and more than `kMax` values were delivered: a request that takes the
balance to `kMax` is never used up.

## Main definitions

* `MergeStream.BetweenRounds`: No value is being delivered.
* `MergeStream.Ledger`: What is delivered and what is not.

## Theorems

* `MergeStream.next_empty`: The check that `next_` is empty does not fail.
* `MergeStream.ledger`: Nothing is lost, and nothing is invented.
* `MergeStream.delivers_beyond_demand`: With an infinite demand more values
  are delivered than tokens were requested.
-/

namespace RxCppUniq

open Theory

namespace MergeStream

variable {ι : Type} {T : ι → Type} {publisher : MergePublisher ι}

/-- No round of the loop has taken a value that it has not delivered. -/
def BetweenRounds (st : Open (component T publisher)) : Prop :=
  ∀ f ∈ st.stack, f.2.inConsume = false

/-- What is delivered and what is not. -/
structure Ledger (st : Open (component T publisher)) : Prop where
  /-- The delivered values of an upstream and the one its subscriber holds are
      what the upstream has sent, as long as no error was taken. -/
  account : errorSent st.log = false → BetweenRounds st →
    ∀ p u, st.state.upstreamSubscribers[p]? = some u →
      cameFrom p st.log ++ valuesOf u.next.toList = valuesOf (sent p st.log)
  /-- Every delivered value came from one of the upstreams. -/
  sources : BetweenRounds st → (origins st.log).length = (valuesOf (received st.log)).length ∧
    ∀ p ∈ origins st.log, p < st.state.upstreamSubscribers.length
  /-- There are no more delivered values than requested ones unless an infinite
      demand has outlasted `kMax` of them. -/
  bounded : unlimited st.log = false ∨ values (received st.log) ≤ kMax →
    values (received st.log) ≤ demand st.log
  /-- An end is the last event. -/
  last : ∀ e ∈ (received st.log).dropLast, e.isEnd = false
  done : ∀ e ∈ received st.log, e.isDone = true → AllDone publisher st.state st.log
  error : ∀ e ∈ received st.log, e.isError = true → OnlyError st.state st.log e
  /-- At most one event of an upstream is on its way or held. -/
  single : ∀ p u, st.state.upstreamSubscribers[p]? = some u →
    (arrived p st.log).length ≤ tokens p st.log ∧
      tokens p st.log - (arrived p st.log).length + (if u.hasNext then 1 else 0) ≤ 1

/-- Between rounds there is nothing in hand. -/
theorem inHand_between (l : Loop (Sigma T)) (st : Open (component T publisher))
    (hl : (books publisher).Fits l st) (hbetween : BetweenRounds st) : l.inHand = [] := by
  have hframes := hl.frames
  cases l with
  | quiet => rfl
  | looping => rfl
  | delivered => rfl
  | past a => rfl
  | consuming e =>
      -- the frame of the round is on the stack
      have hmem : Point.consumed e ∈ (books publisher).stacked st.stack := by
        rw [hframes]
        exact List.mem_singleton_self _
      rw [Open.Modes.stacked, List.mem_filter, List.mem_map] at hmem
      rcases hmem with ⟨⟨f, hf, heq⟩, -⟩
      have hno := hbetween f hf
      rw [heq] at hno
      cases hno

/-- An upstream that has been asked for an event has none with its
    subscriber. -/
theorem Side.single {l : Loop (Sigma T)} {log : Log (Sigma T) ι T} {p : Nat}
    {u : MergeUpstreamSubscriber (Sigma T)} (h : Side l log p u) :
    (arrived p log).length ≤ tokens p log ∧
      tokens p log - (arrived p log).length + (if u.hasNext then 1 else 0) ≤ 1 := by
  have hempty (hnone : u.next = none) : u.hasNext = false := by
    rw [MergeUpstreamSubscriber.hasNext, hnone]
    rfl
  cases h.progress with
  | waiting _ hnone hasked hheard =>
      rw [hempty hnone, hasked, hheard]
      exact ⟨Nat.le_refl _, Nat.zero_le _⟩
  | asked _ hnone _ hasked =>
      rw [hempty hnone, hasked, if_neg Bool.false_ne_true]
      omega
  | holding e _ _ _ hasked =>
      rw [hasked]
      split <;> omega
  | spent _ hnone _ hasked =>
      rw [hempty hnone, hasked, if_neg Bool.false_ne_true]
      omega

theorem Books.conserve {l : Loop (Sigma T)} (st : Open (component T publisher))
    (hl : (books publisher).Fits l st) : Ledger st := by
  have h : Books publisher l st.state st.kinds st.log := hl.facts
  refine
    { account := fun hcalm hbetween p u hu => ?_
      sources := fun hbetween => ⟨?_, fun p hp => ?_⟩
      bounded := fun hlimit => ?_
      last := h.last
      done := h.finished
      error := h.failed
      single := fun p u hu => (h.side p u hu).single }
  · have hold := (h.side p u hu).account hcalm
    rwa [inHand_empty _ _ _ (inHand_between l st hl hbetween), List.append_nil] at hold
  · have hcount := h.count
    rwa [inHand_between l st hl hbetween, List.length_nil, Nat.add_zero] at hcount
  · by_contra hge
    have hpos := tokens_pos_of_mem_origins p st.log hp
    have hsize := h.size
    rw [(h.later p (by omega)).tokens] at hpos
    exact Nat.lt_irrefl 0 hpos
  · cases hinfinite : unlimited st.log with
    | false =>
        have hbal := (h.limit hinfinite).2
        omega
    | true =>
        rcases hlimit with hno | hle
        · exact absurd (hno.symm.trans hinfinite) Bool.false_ne_true
        · exact Nat.le_trans hle (kMax_le_demand st.log hinfinite)

section Checks

variable {V : Type}

/-- The message of the check that `next_` is empty. -/
def notConsumed : String := "next element not consumed"

theorem maybeDeliver_fails (s : MergeStream V) :
    (s.maybeDeliver : Result ι V).2 ≠ .fail notConsumed := by
  unfold maybeDeliver
  split <;> exact fun h => (by cases h)

theorem release_fails (s : MergeStream V) : (s.release : Result ι V).2 ≠ .fail notConsumed := by
  unfold release
  split <;> exact fun h => (by cases h)

theorem subscribeNext_fails (s : MergeStream V) :
    (subscribeNext publisher s).2 ≠ .fail notConsumed := by
  unfold subscribeNext
  split <;> exact fun h => (by cases h)

theorem consumeNext_fails (s : MergeStream V) (i : Nat) (u : MergeUpstreamSubscriber V) :
    (s.consumeNext i u : Result ι V).2 ≠ .fail notConsumed := by
  unfold consumeNext upstreamEnded
  split
  · exact fun h => absurd (Act.fail.inj h) (by decide)
  · simp only
    split
    · split
      · exact fun h => (by cases h)
      · split <;> exact fun h => (by cases h)
    · split
      · exact fun h => absurd (Act.fail.inj h) (by decide)
      · exact fun h => (by cases h)

theorem deliver_fails (s : MergeStream V) : (s.deliver : Result ι V).2 ≠ .fail notConsumed := by
  unfold deliver
  split
  · exact fun h => absurd (Act.fail.inj h) (by decide)
  · split
    · simp only
      split
      · exact fun h => absurd (Act.fail.inj h) (by decide)
      · split
        · exact fun h => (by cases h)
        · exact consumeNext_fails _ _ _
    · exact fun h => (by cases h)

theorem deliverEvent_fails (s : MergeStream V) (e : StatusOr V) :
    (s.deliverEvent e : Result ι V).2 ≠ .fail notConsumed := by
  unfold deliverEvent
  split
  · exact fun h => absurd (Act.fail.inj h) (by decide)
  · split
    · exact fun h => absurd (Act.fail.inj h) (by decide)
    · exact fun h => (by cases h)

theorem cancelLoop_fails (s : MergeStream V) (i : Nat) :
    (s.cancelLoop i : Result ι V).2 ≠ .fail notConsumed := by
  unfold cancelLoop
  split
  · exact fun h => absurd (Act.fail.inj h) (by decide)
  · split
    · exact release_fails _
    · split
      · split
        · exact fun h => absurd (Act.fail.inj h) (by decide)
        · exact fun h => (by cases h)
      · exact fun h => (by cases h)

theorem cancelNext_fails (s : MergeStream V) (i : Nat) :
    (s.cancelNext i : Result ι V).2 ≠ .fail notConsumed := by
  unfold cancelNext
  split
  · exact fun h => absurd (Act.fail.inj h) (by decide)
  · split
    · exact fun h => absurd (Act.fail.inj h) (by decide)
    · exact fun h => (by cases h)

/-- None of the code that runs after a call has returned checks `next_`. -/
theorem resume_fails (views : Nat → Bool) (s : MergeStream (Sigma T)) (k : Point (Sigma T)) :
    ((component T publisher).resume views s k).2 ≠ .fail notConsumed := by
  cases k with
  | done => exact fun h => (by cases h)
  | subscribing => exact subscribeNext_fails s
  | confirmed => exact release_fails _
  | deliver => exact deliver_fails s
  | consumed e => exact deliverEvent_fails s e
  | delivered => exact fun h => (by cases h)
  | failed =>
      simp only [component]
      split
      · exact fun h => absurd (Act.fail.inj h) (by decide)
      · exact fun h => (by cases h)
  | finished =>
      simp only [component]
      split
      · exact fun h => absurd (Act.fail.inj h) (by decide)
      · exact release_fails _
  | cancelling i => exact cancelLoop_fails s i
  | cancelled i => exact cancelNext_fails s i

end Checks

/-- An upstream sends an event only when it was asked for it, and then the
    last one has been consumed. -/
theorem onNext_fails {l : Loop (Sigma T)} {s : MergeStream (Sigma T)} {kinds : List ι}
    {log : Log (Sigma T) ι T} (h : Books publisher l s kinds log) (p : Nat) (i : ι)
    (e : StatusOr (T i)) (hstrict : Strict (tokens p log) (arrived p log ++ [e.code])) :
    (s.onNext p (inVariant i e) : Result ι (Sigma T)).2 ≠ .fail notConsumed := by
  rw [strict_append] at hstrict
  unfold onNext
  cases hu : s.upstreamSubscribers[p]? with
  | none => exact fun hf => absurd (Act.fail.inj hf) (by decide)
  | some u =>
      simp only
      by_cases hfull : u.next.isSome = true
      · rcases Option.isSome_iff_exists.mp hfull with ⟨x, hx⟩
        rcases (h.side p u hu).holding x hx with ⟨-, -, hasked⟩
        omega
      · rw [if_neg hfull]
        exact maybeDeliver_fails _

/-- The check that `next_` is empty does not fail. -/
theorem next_empty (st : Open (component T publisher))
    (h : Open.Reach subscriptionCheck (Rules publisher) st) :
    st.turn ≠ .failed notConsumed := by
  intro hfailed
  rcases h.failed notConsumed hfailed
    with ⟨before, r, hreach, hrunning, hruns, hfail⟩ | ⟨v, c, hgate⟩
  · rcases books_reach before hreach with ⟨l, hl⟩ | ⟨hstopped, -⟩
    · have hbooks : Books publisher l before.state before.kinds before.log := hl.facts
      cases hruns with
      | call c turn ok =>
          cases c with
          | subscribe => exact subscribeNext_fails _ hfail
          | request n => exact maybeDeliver_fails _ hfail
          | cancel => exact absurd rfl ok.2
      | said p i o turn kind ok =>
          cases o with
          | onSubscribe =>
              revert hfail
              simp only [onSubscribe]
              split
              · exact fun hf => absurd (Act.fail.inj hf) (by decide)
              · split
                · exact fun hf => absurd (Act.fail.inj hf) (by decide)
                · exact fun hf => (by cases hf)
          | onNext e => exact onNext_fails hbooks p i e ok.2.2 hfail
          | destroy =>
              revert hfail
              simp only [destroyWrapper]
              split
              · exact fun hf => absurd (Act.fail.inj hf) (by decide)
              · exact release_fails _
      | resume k _ => exact resume_fails _ _ k hfail
    · exact absurd (hrunning.symm.trans hstopped) Bool.false_ne_true
  · exact absurd (subscriptionCheck_some v c _ hgate) (by decide)

/-- Nothing is lost, and nothing is invented, whatever the arrival order. -/
theorem ledger (publisher : MergePublisher ι) (st : Open (component T publisher))
    (h : Open.Reach subscriptionCheck (Rules publisher) st) :
    st.turn ≠ .failed "next element not consumed" ∧ (st.turn.isFailed = false → Ledger st) := by
  refine ⟨next_empty st h, fun hrunning => ?_⟩
  rcases books_reach st h with ⟨l, hl⟩ | ⟨hfailed, -⟩
  · exact Books.conserve st hl
  · exact absurd (hrunning.symm.trans hfailed) Bool.false_ne_true

/-- The event of the second upstream arrives while that of the first is being
    delivered. -/
def overlapping : List (Move Call Bool Unit (fun _ => Signal Nat)) :=
  bothConfirmed ++ [ .call (.request 2), .run, .said 0 () (.onNext (.value 5)), .run,
    .said 1 () (.onNext (.value 6)), .reply, .reply, .run, .reply, .reply, .run ]

theorem ledger_overlapping : ∃ st : Open (component (fun _ : Unit => Nat) twoUpstreams),
    Open.Reach subscriptionCheck (Rules twoUpstreams) st ∧
      received st.log = [.value ⟨(), 5⟩, .value ⟨(), 6⟩] ∧ origins st.log = [0, 1] ∧
      Ledger st := by
  rcases Open.exists_reach_of_play subscriptionCheck (Rules twoUpstreams) overlapping
    (fun (st : Open (component (fun _ : Unit => Nat) twoUpstreams)) =>
      received st.log == [.value ⟨(), 5⟩, .value ⟨(), 6⟩] && origins st.log == [0, 1] &&
        !st.turn.isFailed) (by decide +kernel) with ⟨st, hst, htest⟩
  simp only [Bool.and_eq_true, beq_iff_eq, Bool.not_eq_true'] at htest
  exact ⟨st, hst, htest.1.1, htest.1.2, (ledger twoUpstreams st hst).2 htest.2⟩

section Infinite

/-- The subscriber has asked for `kMax` tokens, and the loop is about to take
    the next value after `n` have been delivered. -/
structure Streaming (n : Nat) (st : Open (component (fun _ : Unit => Nat) oneUpstream)) : Prop where
  turn : st.turn = .run .deliver
  alive : st.state.hasEnded = false
  delivering : st.state.delivering = true
  index : st.state.currentIndex = 0
  demanded : st.state.requestBalance.balance = kMax
  available : 0 < st.state.availableBalance.balance
  upstream : ∃ u v, st.state.upstreamSubscribers = [u] ∧ u.next = some (.value v) ∧
    u.upstreamSubscription = some 0 ∧ u.attached = true
  kinds : st.kinds = [()]
  view : st.views 0 = false
  confirmed : confirmed 0 st.log = true
  released : released 0 st.log = false
  open_ : ended (arrived 0 st.log) = false
  asked : tokens 0 st.log = (arrived 0 st.log).length
  demand : demand st.log = kMax
  received : values (received st.log) = n

/-- The loop takes the value, the upstream answers the request with the next
    one at once, and the value is delivered. -/
theorem Streaming.next {n : Nat} {st : Open (component (fun _ : Unit => Nat) oneUpstream)}
    (h : Streaming n st) (hreach : Open.Reach subscriptionCheck (Rules oneUpstream) st) :
    ∃ st', Open.Reach subscriptionCheck (Rules oneUpstream) st' ∧ Streaming (n + 1) st' := by
  rcases h with ⟨hturn, halive, hdel, hindex, hdemanded, havail, ⟨u, v, hups, hnext, hsub, hatt⟩,
    hkinds, hview, hconf, hrel, hopen, hasked, hdemand, hvalues⟩
  let taken : MergeStream (Sigma fun _ : Unit => Nat) :=
    { st.state with
      upstreamSubscribers := [{ u with next := none }]
      availableBalance := st.state.availableBalance.add (sizeT (-1)) }
  let refilled : MergeStream (Sigma fun _ : Unit => Nat) :=
    { taken with
      upstreamSubscribers := [{ u with next := some (.value ⟨(), 0⟩) }]
      availableBalance := taken.availableBalance.add (sizeT 1) }
  let asking : Open (component (fun _ : Unit => Nat) oneUpstream) :=
    { st with
      state := taken, turn := .outside
      stack := (.part 0, .consumed (.value v)) :: st.stack, log := .ask 0 (.request 1) :: st.log }
  let answered : Open (component (fun _ : Unit => Nat) oneUpstream) :=
    { asking with
      state := refilled, log := .said 0 () (.onNext (.value 0)) :: asking.log }
  let handing : Open (component (fun _ : Unit => Nat) oneUpstream) :=
    { answered with
      stack := (.env, .delivered) :: st.stack, log := .out (.onNext (.value v)) :: answered.log }
  have hask : Open.Reach subscriptionCheck (Rules oneUpstream) asking := by
    have heq : Open.perform subscriptionCheck st st.state.deliver = asking := by
      have hloop : st.state.loopCondition = true := by
        rw [loopCondition, Bool.and_eq_true, decide_eq_true_eq, decide_eq_true_eq, hdemanded]
        exact ⟨by decide, havail⟩
      have hhas : u.hasNext = true := by rw [MergeUpstreamSubscriber.hasNext, hnext]; rfl
      unfold deliver
      simp only [halive, Bool.false_eq_true, if_false, hloop, if_true, hindex, hups,
        List.getElem?_cons_zero, hatt, hhas, Bool.not_true, Bool.or_self, consumeNext, hnext,
        StatusOr.isEnd_value, hsub]
      rw [Open.perform_ask _ _ _ _ _ _ (by rw [hview]; rfl)]
      simp only [asking, taken, addAvailable, setUpstream, List.set_cons_zero, hsub, hatt,
        hindex, hdel, List.length_singleton, halive]
    exact heq ▸ Open.Reach.step _ _ hreach (Open.Step.run st .deliver hturn trivial)
  have hanswer : Open.Reach subscriptionCheck (Rules oneUpstream) answered := by
    have heq : Open.perform subscriptionCheck
        { asking with log := .said 0 () (.onNext (.value 0)) :: asking.log }
        (asking.state.onNext 0 (inVariant () (.value 0))) = answered := by
      simp only [asking, taken, onNext, List.getElem?_cons_zero, Option.isSome_none,
        Bool.false_eq_true, if_false, upstreamSubscriberStateChanged, Int.zero_lt_one, if_true,
        maybeDeliver, addAvailable, setUpstream, hdel, Open.perform_ret, answered, refilled,
        List.set_cons_zero, inVariant, StatusOr.bind]
    have hok : Rules oneUpstream asking (.said 0 () (.onNext (.value 0))) := by
      refine ⟨hconf, hrel, (strict_append _ _ _).mpr ⟨?_, ?_⟩⟩
      · change (arrived 0 st.log).length < tokens 0 st.log + 1
        omega
      · exact (ended_eq_false _).mp hopen
    refine heq ▸ Open.Reach.step _ _ hask (Open.Step.said asking 0 () _ rfl ?_ hok)
    change st.kinds[0]? = some ()
    rw [hkinds]
    rfl
  have hhand : Open.Reach subscriptionCheck (Rules oneUpstream) handing := by
    have heq : Open.perform subscriptionCheck { answered with stack := st.stack }
        (answered.state.deliverEvent (.value v)) = handing := by
      have hrem := RequestBalance.remove_kMax st.state.requestBalance 1 hdemanded
      simp only [answered, asking, refilled, taken, deliverEvent, halive, Bool.false_eq_true,
        if_false, hrem, Open.perform_out, handing]
    exact heq ▸ Open.Reach.step _ _ hanswer
      (Open.Step.reply answered (.part 0) (.consumed (.value v)) st.stack rfl rfl trivial)
  refine ⟨{ handing with stack := st.stack, turn := .run .deliver }, ?_, ?_⟩
  · exact Open.Reach.step _ _ hhand
      (Open.Step.reply handing .env .delivered st.stack rfl rfl trivial)
  · refine ⟨rfl, halive, hdel, hindex, hdemanded, ?_, ⟨_, ⟨(), 0⟩, rfl, rfl, hsub, hatt⟩, hkinds,
      hview, hconf, hrel, ?_, ?_, hdemand, ?_⟩
    · change 0 < ((st.state.availableBalance.add (sizeT (-1))).add (sizeT 1)).balance
      rw [RequestBalance.balance_add, sizeT_one]
      have hmax : 0 < kMax := by decide
      omega
    · change ended (arrived 0 answered.log) = false
      rw [arrived_cons, ended_append]
      change (ended (arrived 0 st.log) || ended [StatusCode.ok]) = false
      rw [hopen]
      rfl
    · change tokens 0 st.log + 1 = (arrived 0 answered.log).length
      rw [arrived_cons, List.length_append, hasked]
      rfl
    · change values (RxCppUniq.received handing.log) = n + 1
      rw [received_cons, values_append]
      change values (RxCppUniq.received st.log) + 1 = n + 1
      rw [hvalues]

/-- The first value arrives while the upstream is subscribed, and the
    subscriber asks for infinitely many. -/
def infiniteDemand : List (Move Call Bool Unit (fun _ => Signal Nat)) :=
  [ .call .subscribe, .said 0 () .onSubscribe, .said 0 () (.onNext (.value 0)), .run, .reply,
    .reply, .call (.request kMax) ]

/-- An infinite demand is not used up. -/
theorem streaming (n : Nat) : ∃ st : Open (component (fun _ : Unit => Nat) oneUpstream),
    Open.Reach subscriptionCheck (Rules oneUpstream) st ∧ Streaming n st := by
  induction n with
  | zero =>
      rcases Open.exists_reach_of_play subscriptionCheck (Rules oneUpstream) infiniteDemand
        (fun (st : Open (component (fun _ : Unit => Nat) oneUpstream)) =>
          (atLoopHead st.turn && !st.state.hasEnded && st.state.delivering &&
            st.state.currentIndex == 0 && st.state.requestBalance.balance == kMax &&
            decide (0 < st.state.availableBalance.balance)) &&
          ((st.state.upstreamSubscribers.map fun u =>
            (u.next, u.upstreamSubscription, u.attached)) ==
              [(some (.value ⟨(), 0⟩), some 0, true)]) &&
          (st.kinds == [()] && !st.views 0 && confirmed 0 st.log && !released 0 st.log &&
            !ended (arrived 0 st.log) && tokens 0 st.log == (arrived 0 st.log).length &&
            demand st.log == kMax && values (received st.log) == 0))
        (by decide +kernel) with ⟨st, hst, htest⟩
      simp only [Bool.and_eq_true, beq_iff_eq, Bool.not_eq_true', decide_eq_true_eq] at htest
      rcases htest with ⟨⟨⟨⟨⟨⟨⟨hhead, halive⟩, hdel⟩, hindex⟩, hdemanded⟩, havail⟩, hups⟩,
        ⟨⟨⟨⟨⟨⟨⟨hkinds, hview⟩, hconf⟩, hrel⟩, hopen⟩, hasked⟩, hdemand⟩, hvalues⟩⟩
      refine ⟨st, hst, eq_of_atLoopHead st.turn hhead, halive, hdel, hindex, hdemanded, havail, ?_,
        hkinds, hview, hconf, hrel, hopen, hasked, hdemand, hvalues⟩
      rcases List.map_eq_singleton_iff.mp hups with ⟨u, heq, hfields⟩
      simp only [Prod.mk.injEq] at hfields
      exact ⟨u, ⟨(), 0⟩, heq, hfields.1, hfields.2.1, hfields.2.2⟩
  | succ n ih =>
      rcases ih with ⟨st, hreach, hst⟩
      exact hst.next hreach

/-- With an infinite demand more values are delivered than tokens were
    requested. -/
theorem delivers_beyond_demand : ∃ st : Open (component (fun _ : Unit => Nat) oneUpstream),
    Open.Reach subscriptionCheck (Rules oneUpstream) st ∧
      demand st.log < values (received st.log) := by
  rcases streaming (kMax + 1) with ⟨st, hreach, hst⟩
  refine ⟨st, hreach, ?_⟩
  rw [hst.demand, hst.received]
  exact Nat.lt_succ_self _

end Infinite

end MergeStream

end RxCppUniq
