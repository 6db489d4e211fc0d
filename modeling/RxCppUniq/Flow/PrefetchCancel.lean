import RxCppUniq.Flow.SelfLock
import RxCppUniq.Reactive.Prefetch

/-!
# Cancellation in Prefetch

A `PrefetchingStream` holds itself until it has delivered its last event.
`Cancel` is passed on to the upstream: where the upstream has ended and only
its events are left in the buffer, the check in `Subscription` fails, and
where it has not, it is destroyed, but the stream is left behind with whatever
is in its buffer.

## Main definitions

* `PrefetchingStream.lock`: The stream holds itself.
* `PrefetchingStream.CancelObeyed`: What it is for a cancellation to be obeyed.

## Theorems

* `PrefetchingStream.cancel_not_obeyed`: No cancellation is.
* `PrefetchingStream.cancel_buffered`: One that fails a check.
-/

namespace RxCppUniq

open Theory

namespace PrefetchingStream

variable {T : Type} {publisher : PrefetchingPublisher}

/-- `self_lock_` is set, until it is reset after the last event. -/
def lock (T : Type) (publisher : PrefetchingPublisher) : Lock (component T publisher) where
  held s := s.selfLock = true ∧ s.hasEnded = false
  drops k := k = .delivered true
  live _ h := h.2
  fresh := rfl

section Keeps

variable {s : PrefetchingStream T} (hheld : s.selfLock = true ∧ s.hasEnded = false)

/-- Code that changes neither the pointer nor the state of the subscription
    and goes on elsewhere than after a delivery. -/
theorem keeps_of_next {r : Result T} (hlock : r.1.selfLock = true) (hlive : r.1.hasEnded = false)
    (hnext : r.2.next ≠ some (.delivered true)) : (lock T publisher).Keeps r :=
  Or.inr ⟨⟨hlock, hlive⟩, fun _ hk hdrops => absurd (hk.trans (congrArg some hdrops)) hnext⟩

include hheld

theorem lock_release : (lock T publisher).Keeps s.release := by
  unfold release
  rw [hheld.1, Bool.true_or, Bool.true_or, Bool.true_or, if_pos rfl]
  exact keeps_of_next hheld.1 hheld.2 (Option.some_ne_none _).symm

theorem lock_maybeDeliver : (lock T publisher).Keeps s.maybeDeliver := by
  unfold maybeDeliver
  by_cases hdelivering : s.delivering = true
  · rw [if_pos hdelivering]
    exact keeps_of_next hheld.1 hheld.2 (Option.some_ne_none _).symm
  · rw [if_neg hdelivering]
    refine keeps_of_next hheld.1 hheld.2 ?_
    simp only [Act.next, ne_eq, Option.some.injEq, reduceCtorEq, not_false_eq_true]

theorem lock_maybeFill (views : Nat → Bool) (k : Point) (hk : k ≠ .delivered true) :
    (lock T publisher).Keeps (s.maybeFill publisher views k) := by
  have hgo : (lock T publisher).Keeps (s, .goto k) :=
    keeps_of_next hheld.1 hheld.2 fun heq => hk (Option.some.inj heq)
  unfold maybeFill
  cases s.upstreamSubscription with
  | none => exact Or.inl ⟨_, rfl⟩
  | some p =>
      simp only
      by_cases hview : views p = true
      · rw [if_pos hview]
        exact hgo
      · rw [if_neg hview]
        by_cases hfull : publisher.refill < s.buffer.length
        · rw [if_pos hfull]
          exact hgo
        · rw [if_neg hfull]
          by_cases hasked : s.toFill publisher ≤ s.upstreamRequestBalance.balance
          · rw [if_pos hasked]
            exact hgo
          · rw [if_neg hasked]
            exact keeps_of_next hheld.1 hheld.2 fun heq => hk (Option.some.inj heq)

/-- The pointer is dropped after an event only if it is the last. -/
theorem lock_deliver : (lock T publisher).Keeps s.deliver := by
  unfold deliver
  cases s.buffer with
  | nil => exact keeps_of_next hheld.1 hheld.2 (Option.some_ne_none _).symm
  | cons e buffer =>
      simp only
      by_cases hrequests : s.requestBalance.hasRequests = true
      · rw [if_pos hrequests]
        cases s.requestBalance.remove 1 with
        | none => exact Or.inl ⟨_, rfl⟩
        | some b =>
            refine Or.inr ⟨hheld, fun k hk hdrops => ⟨e, ?_, ?_⟩⟩
            · rw [Option.some.inj hk]
            · exact Point.delivered.inj ((Option.some.inj hk).trans hdrops)
      · rw [if_neg hrequests]
        exact keeps_of_next hheld.1 hheld.2 (Option.some_ne_none _).symm

theorem lock_onNext (e : StatusOr T) : (lock T publisher).Keeps (s.onNext publisher e) := by
  unfold onNext
  by_cases hfull : publisher.bufferSize ≤ s.buffer.length
  · rw [if_pos hfull]
    exact lock_maybeDeliver (s := { s with buffer := _ }) hheld
  · rw [if_neg hfull]
    cases s.upstreamRequestBalance.remove 1 with
    | none => exact Or.inl ⟨_, rfl⟩
    | some b =>
        exact lock_maybeDeliver (s := { s with upstreamRequestBalance := b, buffer := _ }) hheld

theorem lock_call (views : Nat → Bool) (c : Call) :
    (lock T publisher).Keeps ((component T publisher).call views s c) := by
  cases c with
  | subscribe =>
      simp only [component, subscribe]
      by_cases hzero : publisher.bufferSize = 0
      · rw [if_pos hzero]
        exact Or.inl ⟨_, rfl⟩
      · rw [if_neg hzero]
        refine keeps_of_next rfl hheld.2 ?_
        simp only [Act.next, ne_eq, Option.some.injEq, reduceCtorEq, not_false_eq_true]
  | request n => exact lock_maybeDeliver (s := { s with requestBalance := _ }) hheld
  | cancel =>
      simp only [component, cancel]
      cases s.upstreamSubscription with
      | none => exact Or.inl ⟨_, rfl⟩
      | some p =>
          refine keeps_of_next hheld.1 hheld.2 ?_
          simp only [Act.next, ne_eq, Option.some.injEq, reduceCtorEq, not_false_eq_true]

theorem lock_said (views : Nat → Bool) (p : Nat) (o : Signal T) :
    (lock T publisher).Keeps ((component T publisher).said views s p () o) := by
  cases o with
  | onSubscribe =>
      simp only [component, onSubscribe]
      by_cases hagain : s.upstreamSubscription.isSome = true
      · rw [if_pos hagain]
        exact Or.inl ⟨_, rfl⟩
      · rw [if_neg hagain]
        refine keeps_of_next hheld.1 hheld.2 ?_
        simp only [Act.next, ne_eq, Option.some.injEq, reduceCtorEq, not_false_eq_true]
  | onNext e => exact lock_onNext hheld e
  | destroy => exact lock_release (s := { s with wrapped := false }) hheld

theorem lock_resume (views : Nat → Bool) (k : Point) (hk : k ≠ .delivered true) :
    (lock T publisher).Keeps ((component T publisher).resume views s k) := by
  cases k with
  | done => exact keeps_of_next hheld.1 hheld.2 (Option.some_ne_none _).symm
  | subscribed => exact lock_release (s := { s with created := false }) hheld
  | confirmed =>
      simp only [component, hheld.2, Bool.false_eq_true, if_false]
      exact lock_maybeFill hheld views .done (by simp only [ne_eq, reduceCtorEq,
        not_false_eq_true])
  | deliver => exact lock_deliver hheld
  | delivered isEnd =>
      cases isEnd with
      | true => exact absurd rfl hk
      | false =>
          simp only [component, delivered, hheld.2, Bool.false_eq_true, if_false]
          exact lock_maybeFill hheld views .filled (by simp only [ne_eq, reduceCtorEq,
            not_false_eq_true])
  | filled =>
      change (lock T publisher).Keeps s.filled
      unfold filled
      have hopen : ¬ s.hasEnded = true := by rw [hheld.2]; exact Bool.false_ne_true
      rw [if_neg hopen]
      by_cases hempty : s.buffer.isEmpty = true
      · rw [if_pos hempty]
        exact keeps_of_next hheld.1 hheld.2 (Option.some_ne_none _).symm
      · rw [if_neg hempty]
        refine keeps_of_next hheld.1 hheld.2 ?_
        simp only [Act.next, ne_eq, Option.some.injEq, reduceCtorEq, not_false_eq_true]

end Keeps

theorem lock_reach (st : Open (component T publisher))
    (h : Open.Reach subscriptionCheck PartnerRules st) : (lock T publisher).spec.Holds st := by
  refine (lock T publisher).holds_reach PartnerRules (fun _ _ => PartnerRules.first) ?_ ?_ ?_ ?_
    st h
  · intro views s hlive
    simp only [component, subscribe]
    by_cases hzero : publisher.bufferSize = 0
    · rw [if_pos hzero]
      exact Or.inl ⟨_, rfl⟩
    · rw [if_neg hzero]
      refine keeps_of_next rfl hlive ?_
      simp only [Act.next, ne_eq, Option.some.injEq, reduceCtorEq, not_false_eq_true]
  · exact fun views s c hheld => lock_call hheld views c
  · exact fun views s p _ o hheld => lock_said hheld views p o
  · exact fun views s k hheld hdrops => lock_resume hheld views k hdrops

/-- What it is for a cancellation to be obeyed: it is honoured, and the
    upstream is cancelled if and only if it has not ended. -/
structure CancelObeyed (st : Open (component T publisher)) : Prop where
  honoured : CancelHonoured PartnerRules st
  upstream : cancels 0 (cancelled st).log = cancels 0 st.log + if st.views 0 then 0 else 1

/-- No cancellation is obeyed, in no state before the end was delivered. -/
theorem cancel_not_obeyed (st : Open (component T publisher))
    (h : Open.Reach subscriptionCheck PartnerRules st) (hturn : st.turn = .outside)
    (hopen : st.state.hasEnded = false) (hsubscribed : subscribed st.log = true)
    (hrun : RxCppUniq.delivered st.log = false) : ¬ CancelObeyed st := fun hobeyed =>
  (lock T publisher).not_honoured PartnerRules lock_reach st h hturn hopen hsubscribed hrun
    hobeyed.honoured

/-- A value and the end are in the buffer, and the upstream is gone. -/
def bufferedMoves : List (Move Call Bool Unit (fun _ => Signal Nat)) :=
  [ .call .subscribe, .said 0 () .onSubscribe, .reply, .said 0 () (.onNext (.value 7)),
    .run, .said 0 () (.onNext .done), .run, .said 0 () .destroy, .view 0 true, .reply, .reply ]

/-- Two events fit into the buffer. -/
def twoEvents : PrefetchingPublisher := ⟨2, 1, by decide⟩

theorem buffered_state : ∃ st : Open (component Nat twoEvents),
    Open.Reach subscriptionCheck PartnerRules st ∧ st.turn = .outside ∧
      st.state.hasEnded = false ∧ subscribed st.log = true ∧
      RxCppUniq.delivered st.log = false ∧ st.state.upstreamSubscription = some 0 ∧
      st.views 0 = true := by
  rcases Open.exists_reach_of_play subscriptionCheck PartnerRules bufferedMoves
    (fun (st : Open (component Nat twoEvents)) => st.turn.isOutside && !st.state.hasEnded &&
      subscribed st.log && !RxCppUniq.delivered st.log &&
      st.state.upstreamSubscription == some 0 && st.views 0)
    (by decide +kernel) with ⟨st, hst, htest⟩
  simp only [Bool.and_eq_true, Bool.not_eq_true', beq_iff_eq, Turn.isOutside_iff] at htest
  exact ⟨st, hst, htest.1.1.1.1.1, htest.1.1.1.1.2, htest.1.1.1.2, htest.1.1.2, htest.1.2, htest.2⟩

theorem cancel_not_obeyed_buffered : ∃ st : Open (component Nat twoEvents),
    Open.Reach subscriptionCheck PartnerRules st ∧ ¬ CancelObeyed st := by
  rcases buffered_state with ⟨st, hst, hturn, hopen, hsubscribed, hrun, -, -⟩
  exact ⟨st, hst, cancel_not_obeyed st hst hturn hopen hsubscribed hrun⟩

/-- Where the upstream has ended and its events are in the buffer, a check
    fails. -/
theorem cancel_buffered : ∃ st : Open (component Nat twoEvents),
    Open.Reach subscriptionCheck PartnerRules st ∧ st.state.hasEnded = false ∧
      RxCppUniq.delivered st.log = false ∧
      (cancelled st).turn = .failed "access to subscription after stream ended" ∧
      ¬ CancelObeyed st := by
  rcases buffered_state with ⟨st, hst, -, hopen, -, hrun, hupstream, hview⟩
  have hfails : (cancelled st).turn = .failed "access to subscription after stream ended" := by
    simp only [cancelled, component, cancel, hupstream, Open.perform, hview, subscriptionCheck,
      if_true]
  refine ⟨st, hst, hopen, hrun, hfails, fun hobeyed => ?_⟩
  have haccepted := hobeyed.honoured.accepted
  rw [hfails] at haccepted
  exact absurd haccepted (by simp only [Turn.isFailed, Bool.true_eq_false, not_false_eq_true])

end PrefetchingStream

end RxCppUniq
