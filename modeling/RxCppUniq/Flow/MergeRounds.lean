import RxCppUniq.Flow.MergeOrigins
import RxCppUniq.Reactive.Generating
import RxCppUniq.Theory.Link

/-!
# Rounds of Merge

`MergeStream` over value publishers. Their streams answer a request before it
returns, so all of them hold an event, as far as they have not ended, whenever
the loop of `MaybeDeliver` looks for one, and each turn of an upstream in the
loop takes the next of its events. What has been delivered is a matter of the
round the loop is in and of its place in the round.

## Main definitions

* `ValueStream`: A stream of a value publisher, as a part of the merged one.
* `MergeStream.interleaved`: The first elements of all upstreams, then all
  second elements, and so on.
* `MergeStream.turns`: The turns an upstream has had.

## Theorems

* `MergeStream.answers`: What a request does to an upstream and its subscriber.
* `MergeStream.deliveredBefore_next`: What one turn more delivers.
-/

namespace RxCppUniq

open Theory

variable {ι : Type} {T : ι → Type}

/-- A stream of a value publisher. -/
structure ValueStream (T : ι → Type) where
  kind : ι
  values : List (T kind)
  stream : GeneratingStream Nat := { state := 0 }

namespace ValueStream

/-- The methods of the streams. -/
abbrev parts (T : ι → Type) : Parts Call Bool ι (fun i => Signal (T i)) where
  State := ValueStream T
  Point := GeneratingStream.Point
  kind := kind
  call u c :=
    let r := (GeneratingStream.component (GeneratingStream.valueGenerator u.values) 0).call
      (fun _ => false) u.stream c
    ({ u with stream := r.1 }, r.2)
  resume u k :=
    let r := (GeneratingStream.component (GeneratingStream.valueGenerator u.values) 0).resume
      (fun _ => false) u.stream k
    ({ u with stream := r.1 }, r.2)
  look u := u.stream.hasEnded

/-- The stream of the given values that is about to send the event with number
    `n`. -/
abbrev before (x : (i : ι) × List (T i)) (n : Nat) : ValueStream T where
  kind := x.1
  values := x.2
  stream := { state := n }

/-- The stream when it has sent that event. After the end it is destroyed. -/
abbrev after (x : (i : ι) × List (T i)) (n : Nat) : ValueStream T where
  kind := x.1
  values := x.2
  stream :=
    if n < x.2.length then { state := n + 1 }
    else { hasEnded := true, state := n, generating := true }

end ValueStream

namespace MergeStream

/-- The publisher of the merged stream. -/
def valuePublisher (upstream : List ((i : ι) × List (T i))) (fits : upstream.length < 2 ^ 31) :
    MergePublisher ι where
  upstream := upstream.map (·.1)
  fits := by rwa [List.length_map]

/-- The elements with the given number of all upstreams that have one, in
    upstream order. -/
def round (upstream : List ((i : ι) × List (T i))) (n : Nat) : List (Sigma T) :=
  upstream.filterMap fun x => x.2[n]?.map (Sigma.mk x.1)

/-- The length of the longest list. -/
def longest (upstream : List ((i : ι) × List (T i))) : Nat :=
  (upstream.map fun x => x.2.length).foldr max 0

/-- The first elements of all upstreams, then all second elements, and so
    on. -/
def interleaved (upstream : List ((i : ι) × List (T i))) : List (Sigma T) :=
  (List.range (longest upstream)).flatMap (round upstream)

/-- All that is published. -/
def published (upstream : List ((i : ι) × List (T i))) : List (StatusOr (Sigma T)) :=
  (interleaved upstream).map .value ++ [.done]

/-- The event with number `n` of an upstream, as an event of the variant. -/
def eventOf (x : (i : ι) × List (T i)) (n : Nat) : StatusOr (Sigma T) :=
  inVariant x.1 (GeneratingStream.valueGenerator x.2 n).1

/-- The merged stream with its upstreams. -/
abbrev Merging (T : ι → Type) (publisher : MergePublisher ι) :=
  Linked (component T publisher) (ValueStream.parts T)

/-- Between two logs lie calls between the merged stream and its upstreams
    only. -/
structure Inner (log log' : Log (Sigma T) ι T) : Prop where
  received : received log' = received log
  demand : demand log' = demand log
  unlimited : unlimited log' = unlimited log
  subscribed : subscribed log' = subscribed log

/-- Where the demand is not infinite less than `kMax` events are outstanding. -/
theorem outstanding_lt (log : Log (Sigma T) ι T) (h : unlimited log = false) :
    demand log - values (received log) < kMax := by
  cases log with
  | nil =>
      rw [demand_nil, Nat.zero_sub]
      decide
  | cons n log =>
      rw [unlimited_cons, Bool.or_eq_false_iff, decide_eq_false_iff_not] at h
      rw [demand_cons, received_cons, values_append]
      have hlt := h.2
      omega

namespace Inner

theorem refl (log : Log (Sigma T) ι T) : Inner log log :=
  ⟨rfl, rfl, rfl, rfl⟩

theorem trans {log log' log'' : Log (Sigma T) ι T} (h : Inner log log') (h' : Inner log' log'') :
    Inner log log'' :=
  ⟨h'.received.trans h.received, h'.demand.trans h.demand, h'.unlimited.trans h.unlimited,
    h'.subscribed.trans h.subscribed⟩

end Inner

/-- An entry that asks for nothing does not make the demand infinite. -/
theorem unlimited_quiet (n : Entry (Sigma T) ι T) (log : Log (Sigma T) ι T)
    (hn : n.demand = 0) : unlimited (n :: log) = unlimited log := by
  rw [unlimited_cons, hn, Nat.add_zero]
  cases h : unlimited log with
  | true => rfl
  | false =>
      rw [Bool.false_or, decide_eq_false_iff_not, Nat.not_le]
      exact outstanding_lt log h

theorem Inner.ask (p : Nat) (c : Call) (log : Log (Sigma T) ι T) : Inner log (.ask p c :: log) :=
  ⟨by rw [received_cons]; exact List.append_nil _, by rw [demand_cons]; rfl,
    unlimited_quiet _ _ rfl, rfl⟩

theorem Inner.said (p : Nat) (i : ι) (s : Signal (T i)) (log : Log (Sigma T) ι T) :
    Inner log (.said p i s :: log) :=
  ⟨by rw [received_cons]; exact List.append_nil _, by rw [demand_cons]; rfl,
    unlimited_quiet _ _ rfl, rfl⟩

section Answer

variable {publisher : MergePublisher ι} {Inv : Merging T publisher → Prop}
  {st : Merging T publisher}

/-- No event is delivered when one arrives: either the loop is running already,
    or there is no demand. -/
def Quiet (s : MergeStream (Sigma T)) : Prop :=
  s.delivering = true ∨ s.requestBalance.balance = 0

/-- An event arrives at a subscriber that holds none. -/
theorem hears {p : Nat} {i : ι} {e : StatusOr (T i)} {u : MergeUpstreamSubscriber (Sigma T)}
    (hturn : st.turn = .said p i (.onNext e)) (hu : st.state.upstreamSubscribers[p]? = some u)
    (hnext : u.next = none) (hended : st.state.hasEnded = false) (hquiet : Quiet st.state)
    (h : Linked.Settles subscriptionCheck Inv (Linked.back { st with
      state := (st.state.setUpstream p { u with next := some (inVariant i e) }).addAvailable 1 })) :
    Linked.Settles subscriptionCheck Inv st := by
  have hsaid : (component T publisher).said st.views st.state p i (.onNext e) =
      maybeDeliver ((st.state.setUpstream p
        { u with next := some (inVariant i e) }).addAvailable 1) := by
    change onNext st.state p (inVariant i e) = _
    rw [onNext, hu]
    simp only [hnext, Option.isSome_none, Bool.false_eq_true, if_false]
    rw [upstreamSubscriberStateChanged, if_pos (by decide)]
  generalize hs : (st.state.setUpstream p
    { u with next := some (inVariant i e) }).addAvailable 1 = s at h hsaid
  have hend : s.hasEnded = false := hs ▸ hended
  have hdemand : s.delivering = true ∨ s.requestBalance.balance = 0 := hs ▸ hquiet
  cases hdelivering : s.delivering with
  | true =>
      rw [maybeDeliver, if_pos hdelivering] at hsaid
      exact .of_said _ hturn hsaid h
  | false =>
      -- The loop is entered and left at once.
      rw [maybeDeliver, if_neg (by rw [hdelivering]; exact Bool.false_ne_true)] at hsaid
      have hzero := hdemand.resolve_left (by rw [hdelivering]; exact Bool.false_ne_true)
      have hdeliver : (deliver { s with delivering := true } : Result ι (Sigma T)) = (s, .ret) := by
        rw [deliver, if_neg (by rw [hend]; exact Bool.false_ne_true), loopCondition]
        simp only [hzero, Nat.lt_irrefl, decide_false, Bool.false_and, Bool.false_eq_true, if_false]
        rw [← hdelivering]
      exact .of_said _ hturn hsaid (.of_run _ rfl hdeliver h)

/-- The stream is held while it has its lock on itself. -/
theorem release_held {s : MergeStream (Sigma T)} (hlock : s.selfLock = true) :
    (s.release : Result ι (Sigma T)) = (s, .ret) := by
  unfold release held
  rw [hlock, Bool.true_or, Bool.true_or, Bool.true_or, if_pos rfl]

/-- The wrapper of a subscriber is destroyed. -/
theorem destroyWrapper_held {s : MergeStream (Sigma T)} {p : Nat}
    {u : MergeUpstreamSubscriber (Sigma T)} (hu : s.upstreamSubscribers[p]? = some u)
    (hlock : s.selfLock = true) :
    (s.destroyWrapper p : Result ι (Sigma T)) =
      (s.setUpstream p { u with wrapped := false }, .ret) := by
  rw [destroyWrapper, hu]
  exact release_held hlock

theorem getElem?_setUpstream_self {V : Type} {s : MergeStream V} {p : Nat}
    {u : MergeUpstreamSubscriber V} (hu : s.upstreamSubscribers[p]? = some u)
    (u' : MergeUpstreamSubscriber V) :
    (s.setUpstream p u').upstreamSubscribers[p]? = some u' := by
  have hlt : p < s.upstreamSubscribers.length := by
    rw [List.getElem?_eq_some_iff] at hu
    exact hu.1
  exact List.getElem?_set_self hlt

/-- What the generator of a value publisher makes. -/
theorem valueGenerator_of_lt {R : Type} {values : List R} {n : Nat} (h : n < values.length) :
    GeneratingStream.valueGenerator values n = (.value values[n], n + 1) := by
  rw [GeneratingStream.valueGenerator, List.getElem?_eq_getElem h]

theorem valueGenerator_of_le {R : Type} {values : List R} {n : Nat} (h : values.length ≤ n) :
    GeneratingStream.valueGenerator values n = (.done, n) := by
  rw [GeneratingStream.valueGenerator, List.getElem?_eq_none h]

/-- The stream has been asked for the event with number `n`. -/
abbrev asked (x : (i : ι) × List (T i)) (n : Nat) : ValueStream T where
  kind := x.1
  values := x.2
  stream := { state := n, requested := RequestBalance.zero.add 1, generating := true }

/-- The stream has called its subscriber. -/
abbrev calling (x : (i : ι) × List (T i)) (n : Nat) : ValueStream T where
  kind := x.1
  values := x.2
  stream := { state := n, generating := true }

/-- The stream makes an event for the token. -/
theorem resume_asked (x : (i : ι) × List (T i)) (n : Nat) :
    (ValueStream.parts T).resume (asked x n) .generate =
      (calling x (GeneratingStream.valueGenerator x.2 n).2,
        .out (.onNext (GeneratingStream.valueGenerator x.2 n).1)
          (.sent (GeneratingStream.valueGenerator x.2 n).1.isEnd)) := by
  have hrequests : (RequestBalance.zero.add 1).hasRequests = true := by decide
  have hremove : (RequestBalance.zero.add 1).remove 1 = some .zero := by decide
  simp only [GeneratingStream.generate, hrequests, if_true, hremove]

/-- An upstream that is asked for its next event sends it before it returns,
    and the subscriber holds it. With the end the stream is destroyed, and the
    wrapper it owns. -/
theorem answers {p n : Nat} {x : (i : ι) × List (T i)} {u : MergeUpstreamSubscriber (Sigma T)}
    (hturn : st.turn = .ask p (.request 1)) (hpart : st.parts[p]? = some (ValueStream.before x n))
    (hu : st.state.upstreamSubscribers[p]? = some u) (hnext : u.next = none)
    (hended : st.state.hasEnded = false) (hlock : st.state.selfLock = true)
    (hquiet : Quiet st.state)
    (h : ∀ log, Inner st.log log → Linked.Settles subscriptionCheck Inv (Linked.back { st with
      state := (st.state.setUpstream p { u with
        next := some (eventOf x n), wrapped := u.wrapped && n < x.2.length }).addAvailable 1
      parts := st.parts.set p (ValueStream.after x n)
      log := log })) :
    Linked.Settles subscriptionCheck Inv st := by
  have hlt : p < st.parts.length := by
    rw [List.getElem?_eq_some_iff] at hpart
    exact hpart.1
  have hset : ∀ (l : List (ValueStream T)) v, l.length = st.parts.length →
      (l.set p v)[p]? = some v :=
    fun l v hl => List.getElem?_set_self (hl ▸ hlt)
  -- The request is counted, and the loop of the generator makes one event.
  refine .of_ask (asked x n, .goto .generate) hturn hpart rfl ?_
  refine .of_part _ rfl (hset _ _ rfl) (resume_asked x n) ?_
  by_cases hn : n < x.2.length
  · -- After a value the loop has no more demand.
    have hinner := Inner.said (T := T) p x.1 (.onNext (.value x.2[n])) st.log
    have hfinal := h _ hinner
    simp only [eventOf, valueGenerator_of_lt hn, ValueStream.after, if_pos hn, decide_eq_true hn,
      Bool.and_true] at hfinal
    rw [valueGenerator_of_lt hn]
    refine hears rfl hu hnext hended hquiet ?_
    refine .of_part (calling x (n + 1), .goto .generate) rfl (hset _ _ (List.length_set ..)) rfl ?_
    refine .of_part (ValueStream.before x (n + 1), .ret) rfl
      (hset _ _ (by simp only [Linked.answer, Linked.back, List.length_set])) rfl ?_
    simp only [Linked.answer, Linked.back, List.set_set]
    exact hfinal
  · -- After the end the stream deletes itself, and its wrapper with it.
    have hinner := (Inner.said (T := T) p x.1 (.onNext .done) st.log).trans
      (.said p x.1 .destroy _)
    have hfinal := h _ hinner
    simp only [eventOf, valueGenerator_of_le (Nat.le_of_not_lt hn), ValueStream.after, if_neg hn,
      decide_eq_false hn, Bool.and_false] at hfinal
    rw [valueGenerator_of_le (Nat.le_of_not_lt hn)]
    refine hears rfl hu hnext hended hquiet ?_
    refine .of_part ({ calling x n with
        stream := { hasEnded := true, state := n, generating := true } }, .out .destroy .done)
      rfl (hset _ _ (List.length_set ..)) rfl ?_
    refine .of_said (((st.state.setUpstream p { u with
        next := some (inVariant x.1 .done), wrapped := false }).addAvailable 1), .ret) rfl ?_ ?_
    · change destroyWrapper ((st.state.setUpstream p
        { u with next := some (inVariant x.1 .done) }).addAvailable 1) p = _
      have hthere := getElem?_setUpstream_self hu { u with next := some (inVariant x.1 .done) }
      rw [destroyWrapper_held (s := (st.state.setUpstream p _).addAvailable 1) hthere hlock]
      simp only [setUpstream, addAvailable, List.set_set]
    · refine .of_part ({ calling x n with
        stream := { hasEnded := true, state := n, generating := true } }, .ret) rfl
        (hset _ _ (by simp only [Linked.answer, Linked.back, List.length_set])) rfl ?_
      simp only [Linked.answer, Linked.perform, Linked.back, List.set_set]
      exact hfinal

end Answer

/-- The subscriber of an upstream that has had `t` turns: it holds the next
    event, or it is gone when the end has been taken. The wrapper goes with the
    upstream, which has ended when it has sent the end. -/
def expected (x : (i : ι) × List (T i)) (p t : Nat) : MergeUpstreamSubscriber (Sigma T) :=
  if t ≤ x.2.length then
    { next := some (eventOf x t), upstreamSubscription := some p, wrapped := t < x.2.length }
  else { upstreamSubscription := some p, attached := false, wrapped := false }

/-- The first `m` upstreams are subscribed to, and each has had the given
    number of turns. -/
structure Sides (upstream : List ((i : ι) × List (T i))) (m : Nat) (turns : Nat → Nat)
    (subscribers : List (MergeUpstreamSubscriber (Sigma T))) (parts : List (ValueStream T)) :
    Prop where
  length : subscribers.length = m
  count : parts.length = upstream.length
  subscriber : ∀ p x, upstream[p]? = some x → p < m →
    subscribers[p]? = some (expected x p (turns p))
  part : ∀ p x, upstream[p]? = some x → parts[p]? = some
    (if p < m then ValueStream.after x (min (turns p) x.2.length) else ValueStream.before x 0)

theorem getElem?_concat {A : Type} {l : List A} {m : Nat} (h : l.length = m) (a : A) :
    (l ++ [a])[m]? = some a := by
  rw [← h, List.getElem?_concat_length]

theorem set_concat {A : Type} {l : List A} {m : Nat} (h : l.length = m) (a b : A) :
    (l ++ [a]).set m b = l ++ [b] := by
  rw [← h, List.set_append_right _ _ (Nat.le_refl _), Nat.sub_self, List.set_cons_zero]

section Setup

variable {upstream : List ((i : ι) × List (T i))} {fits : upstream.length < 2 ^ 31}
  {Inv : Merging T (valuePublisher upstream fits) → Prop}

/-- What holds while the upstreams are subscribed to. -/
structure SetUp (upstream : List ((i : ι) × List (T i))) (m : Nat) (s : MergeStream (Sigma T))
    (parts : List (ValueStream T)) (made : Nat) : Prop where
  sides : Sides upstream m (fun _ => 0) s.upstreamSubscribers parts
  made : made = m
  hasEnded : s.hasEnded = false
  selfLock : s.selfLock = true
  created : s.created = true
  currentIndex : s.currentIndex = 0
  requestBalance : s.requestBalance = .zero
  available : 0 < m → 0 < s.availableBalance.balance
  delivering : s.delivering = false

/-- The subscriber of one upstream more holds its first event. -/
theorem Sides.subscribe {m : Nat} {subscribers : List (MergeUpstreamSubscriber (Sigma T))}
    {parts : List (ValueStream T)} (h : Sides upstream m (fun _ => 0) subscribers parts)
    {x : (i : ι) × List (T i)} (hx : upstream[m]? = some x) :
    Sides upstream (m + 1) (fun _ => 0)
      ((subscribers ++ [({ upstreamSubscription := some m } :
          MergeUpstreamSubscriber (Sigma T))]).set m
        { next := some (eventOf x 0), upstreamSubscription := some m
          wrapped := true && 0 < x.2.length })
      (((parts.set m (ValueStream.before x 0)).set m (ValueStream.after x 0)).set m
        (ValueStream.after x 0)) where
  length := by
    simp only [set_concat h.length, List.length_append, List.length_singleton, h.length]
  count := by simp only [List.length_set, h.count]
  subscriber p y hy hp := by
    rw [set_concat h.length]
    by_cases hm : p = m
    · subst hm
      rw [hx, Option.some.injEq] at hy
      rw [getElem?_concat h.length, expected, if_pos (Nat.zero_le _), Bool.true_and, hy]
    · rw [List.getElem?_append_left (by rw [h.length]; omega)]
      exact h.subscriber p y hy (by omega)
  part p y hy := by
    simp only [List.set_set]
    by_cases hm : p = m
    · subst hm
      rw [hx, Option.some.injEq] at hy
      have hlt : p < parts.length := by
        rw [h.count]
        exact (List.getElem?_eq_some_iff.mp hx).1
      rw [List.getElem?_set_self hlt, if_pos (Nat.lt_succ_self p), Nat.zero_min, hy]
    · have hiff : p < m + 1 ↔ p < m := by omega
      rw [List.getElem?_set_ne (Ne.symm hm), h.part p y hy]
      simp only [hiff]

/-- One upstream more is subscribed to. It is asked for its first event, which
    is there when the call returns. -/
theorem subscribes {m : Nat} {st : Merging T (valuePublisher upstream fits)}
    (hset : SetUp upstream m st.state st.parts st.made) (hm : m < upstream.length)
    (h : ∀ st' : Merging T (valuePublisher upstream fits),
      SetUp upstream (m + 1) st'.state st'.parts st'.made → st'.stack = st.stack →
      Inner st.log st'.log → Linked.Settles subscriptionCheck Inv
        (Linked.perform (fun p => subscriptionCheck (st'.views p)) st'
          (subscribeNext (valuePublisher upstream fits) st'.state))) :
    Linked.Settles subscriptionCheck Inv
      (Linked.perform (fun p => subscriptionCheck (st.views p)) st
        (subscribeNext (valuePublisher upstream fits) st.state)) := by
  have hx : upstream[m]? = some upstream[m] := List.getElem?_eq_getElem hm
  generalize upstream[m] = x at hx
  have hpart : st.parts[m]? = some (ValueStream.before x 0) := by
    rw [hset.sides.part m x hx, if_neg (Nat.lt_irrefl m)]
  have hnext : (subscribeNext (valuePublisher upstream fits) st.state :
      Result ι (Sigma T)) = ({ st.state with
        upstreamSubscribers := st.state.upstreamSubscribers ++ [{}] },
        .make x.1 .subscribe .subscribing) := by
    rw [subscribeNext, hset.sides.length, valuePublisher]
    simp only [List.getElem?_map, hx, Option.map_some]
  have hlt : m < st.parts.length := by
    rw [List.getElem?_eq_some_iff] at hpart
    exact hpart.1
  -- The upstream is subscribed to, and hands out its subscription.
  rw [hnext]
  refine .of_ask (u := ValueStream.before x 0) (ValueStream.before x 0, .out .onSubscribe .done)
    (congrArg (Linked.Turn.ask · Call.subscribe) hset.made) hpart rfl ?_
  have hsaid : (onSubscribe { st.state with
      upstreamSubscribers := st.state.upstreamSubscribers ++ [{}] } m : Result ι (Sigma T)) =
      ({ st.state with
        upstreamSubscribers :=
          st.state.upstreamSubscribers ++ [{ upstreamSubscription := some m }] },
        .ask m (.request 1) .done) := by
    simp only [onSubscribe, getElem?_concat hset.sides.length, Option.isSome_none,
      Bool.false_eq_true, if_false, setUpstream, set_concat hset.sides.length]
  refine .of_said _ rfl hsaid ?_
  -- The first event is asked for.
  have hthere : (st.parts.set m (ValueStream.before x 0))[m]? = some (ValueStream.before x 0) :=
    List.getElem?_set_self hlt
  rw [Linked.perform_ask _ _ _ _ _ _ (by
    rw [Linked.views_eq (u := ValueStream.before x 0) hthere, subscriptionCheck_false])]
  refine answers rfl hthere (getElem?_concat hset.sides.length _) rfl hset.hasEnded hset.selfLock
    (Or.inr (congrArg RequestBalance.balance hset.requestBalance)) fun log hlog => ?_
  -- All calls return.
  refine .of_run (_, .ret) rfl rfl ?_
  refine .of_part (u := ValueStream.after x 0) (ValueStream.after x 0, .ret) rfl
    (List.getElem?_set_self (Nat.lt_of_lt_of_eq hlt (List.length_set ..).symm)) rfl ?_
  refine .of_run _ rfl rfl ?_
  refine h _ ?_ rfl ?_
  · exact
      { sides := hset.sides.subscribe hx
        made := congrArg (· + 1) hset.made
        hasEnded := hset.hasEnded
        selfLock := hset.selfLock
        created := hset.created
        currentIndex := hset.currentIndex
        requestBalance := hset.requestBalance
        available := fun _ => by
          have hadd := RequestBalance.balance_add st.state.availableBalance (sizeT 1)
          have hone : sizeT 1 = 1 := by decide
          rw [hone] at hadd
          have hpos : 0 < kMax := by decide
          change 0 < (st.state.availableBalance.add (sizeT 1)).balance
          rw [hone, hadd]
          omega
        delivering := hset.delivering }
  · exact ((Inner.ask _ _ _).trans ((Inner.said _ _ _ _).trans (.ask _ _ _))).trans hlog

end Setup

end MergeStream

end RxCppUniq
