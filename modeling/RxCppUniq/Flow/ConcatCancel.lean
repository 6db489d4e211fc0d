import RxCppUniq.Flow.SelfLock
import RxCppUniq.Reactive.Concat

/-!
# Requests and Cancellation in Concat

A `ConcatStream` passes requests and cancellations on to the stream that is
running. Between the `Done` of the first stream and the confirmation of the
second there is none, and both calls fail a check. A cancellation that fails
no check is passed on, but the stream holds itself and drops that pointer
only after it has delivered an end, so it does not end.

## Main definitions

* `ConcatStream.lock`: The stream holds itself.
* `ConcatStream.phase`: Which of the two streams is running.
* `ConcatStream.Accepts`: What it is for a call to be accepted.

## Theorems

* `ConcatStream.cancel_not_accepted`: No cancellation is accepted.
* `ConcatStream.accepts_iff`: The calls that are accepted.
* `ConcatStream.request_switching`: A request that fails a check.
-/

namespace RxCppUniq

open Theory

namespace ConcatStream

variable {T : Type}

/-- `self_lock_` is set, until it is reset after the last event. -/
def lock (T : Type) : Lock (component T) where
  held s := s.selfLock = true ∧ s.hasEnded = false
  drops k := k = .selfDestruct
  live _ h := h.2
  fresh := rfl

section Lock

variable {s : ConcatStream}

/-- Code that leaves the pointer alone and does not go on to drop it. -/
theorem keeps_of_next {r : Result T} (hlock : r.1.selfLock = true) (hlive : r.1.hasEnded = false)
    (hnext : r.2.next ≠ some .selfDestruct) : (lock T).Keeps r :=
  Or.inr ⟨⟨hlock, hlive⟩, fun _ hk hdrops => absurd (hk.trans (congrArg some hdrops)) hnext⟩

theorem done_ne_selfDestruct : some Point.done ≠ some Point.selfDestruct := by
  simp only [ne_eq, Option.some.injEq, reduceCtorEq, not_false_eq_true]

theorem lock_subscribeNext (hlive : s.hasEnded = false) (half : Half) (k : Point)
    (hk : some k ≠ some Point.selfDestruct) : (lock T).Keeps (s.subscribeNext half k) :=
  keeps_of_next rfl hlive hk

variable (hheld : s.selfLock = true ∧ s.hasEnded = false)

include hheld

theorem lock_release : (lock T).Keeps s.release := by
  unfold release
  rw [hheld.1, Bool.true_or, Bool.true_or, Bool.true_or, if_pos rfl]
  exact keeps_of_next hheld.1 hheld.2 (Option.some_ne_none _).symm

theorem lock_call (views : Nat → Bool) (c : Call) :
    (lock T).Keeps ((component T).call views s c) := by
  cases c with
  | subscribe =>
      exact keeps_of_next rfl hheld.2 (by simp only [subscribeNext, Act.next, ne_eq,
        Option.some.injEq, reduceCtorEq, not_false_eq_true])
  | request n =>
      simp only [component, request]
      cases s.upstreamSubscription with
      | none => exact Or.inl ⟨_, rfl⟩
      | some p =>
          simp only
          by_cases hview : views p = true
          · rw [if_pos hview]
            exact keeps_of_next hheld.1 hheld.2 (Option.some_ne_none _).symm
          · rw [if_neg hview]
            exact keeps_of_next hheld.1 hheld.2 done_ne_selfDestruct
  | cancel =>
      simp only [component, cancel]
      cases s.upstreamSubscription with
      | none => exact Or.inl ⟨_, rfl⟩
      | some p =>
          simp only
          by_cases hview : views p = true
          · rw [if_pos hview]
            exact keeps_of_next hheld.1 hheld.2 (Option.some_ne_none _).symm
          · rw [if_neg hview]
            exact keeps_of_next hheld.1 hheld.2 done_ne_selfDestruct

theorem lock_onSubscribe (p : Nat) : (lock T).Keeps (s.onSubscribe p) := by
  unfold onSubscribe
  by_cases hagain : (s.upstreamSubscription.isSome && s.isRunningFirst) = true
  · rw [if_pos hagain]
    exact Or.inl ⟨_, rfl⟩
  · rw [if_neg hagain]
    by_cases hfirst : isRunningFirst { s with upstreamSubscription := some p } = true
    · simp only [hfirst, if_true]
      exact keeps_of_next hheld.1 hheld.2 done_ne_selfDestruct
    · simp only [hfirst, Bool.false_eq_true, if_false]
      by_cases hrequests : s.requestBalance.hasRequests = true
      · rw [if_pos hrequests]
        exact keeps_of_next hheld.1 hheld.2 done_ne_selfDestruct
      · rw [if_neg hrequests]
        exact keeps_of_next hheld.1 hheld.2 (Option.some_ne_none _).symm

/-- The pointer is dropped after an event only if it is the last. -/
theorem lock_onNext (e : StatusOr T) : (lock T).Keeps (s.onNext e) := by
  unfold onNext
  cases hend : e.isEnd with
  | false =>
      simp only [Bool.not_false, if_true]
      cases s.requestBalance.remove 1 with
      | none => exact Or.inl ⟨_, rfl⟩
      | some b => exact keeps_of_next hheld.1 hheld.2 done_ne_selfDestruct
  | true =>
      simp only [Bool.not_true, Bool.false_eq_true, if_false]
      by_cases hlast : (e.isError || !s.isRunningFirst) = true
      · rw [if_pos hlast]
        refine Or.inr ⟨hheld, fun k hk _ => ⟨e, ?_, hend⟩⟩
        rw [Option.some.inj hk]
      · rw [if_neg hlast]
        exact lock_subscribeNext hheld.2 .second .done done_ne_selfDestruct

theorem lock_resume (views : Nat → Bool) (k : Point) (hk : k ≠ .selfDestruct) :
    (lock T).Keeps ((component T).resume views s k) := by
  cases k with
  | done => exact keeps_of_next hheld.1 hheld.2 (Option.some_ne_none _).symm
  | subscribed => exact lock_release (s := { s with created := false }) hheld
  | selfDestruct => exact absurd rfl hk

end Lock

theorem lock_reach (st : Open (component T))
    (h : Open.Reach subscriptionCheck PartnerRules st) : (lock T).spec.Holds st := by
  refine (lock T).holds_reach PartnerRules (fun _ _ => PartnerRules.first) ?_ ?_ ?_ ?_ st h
  · intro views s hlive
    exact lock_subscribeNext (s := { s with created := true }) hlive .first .subscribed
      (by simp only [ne_eq, Option.some.injEq, reduceCtorEq, not_false_eq_true])
  · exact fun views s c hheld => lock_call hheld views c
  · intro views s p i o hheld
    cases o with
    | onSubscribe => exact lock_onSubscribe hheld p
    | onNext e => exact lock_onNext hheld e
    | destroy => exact lock_release (s := { s with wrappers := s.wrappers - 1 }) hheld
  · exact fun views s k hheld hdrops => lock_resume hheld views k hdrops

/-- The first stream is running. -/
structure RunningFirst (s : ConcatStream) (kinds : List Half) (log : Log T Half (fun _ => T)) :
    Prop where
  started : log ≠ []
  continueWith : s.continueWith = true
  kinds : kinds = [.first]
  open_ : ended (arrived 0 log) = false
  upstream : s.upstreamSubscription.isSome = confirmed 0 log
  subscribed : RxCppUniq.subscribed log = confirmed 0 log
  unconfirmed : confirmed 1 log = false

/-- The first stream is done, and the second one has been subscribed. -/
structure RunningSecond (s : ConcatStream) (kinds : List Half) (log : Log T Half (fun _ => T)) :
    Prop where
  continueWith : s.continueWith = false
  kinds : kinds = [.first, .second]
  finished : ended (arrived 0 log) = true
  confirmed : confirmed 0 log = true
  upstream : s.upstreamSubscription.isSome = RxCppUniq.confirmed 1 log

/-- Which of the two streams is running, as long as no end was delivered. -/
def phase (T : Type) : Open.Spec (component T) where
  Core s kinds log :=
    log = [] ∧ kinds = [] ∧ s = {} ∨ RunningFirst s kinds log ∨ RunningSecond s kinds log ∨
      delivered log = true
  Frame _ _ _ _ := True
  Safe _ _ := True

section Phase

variable {s t : ConcatStream} {kinds : List Half} {before log : Log T Half (fun _ => T)}

theorem phase_keeps {r : Result T}
    (h : (∃ msg, r.2 = .fail msg) ∨ (phase T).Core r.1 (r.2.kinds kinds) (r.2.log kinds log)) :
    (phase T).Keeps s kinds before log r :=
  ⟨trivial, h, fun _ _ => trivial, fun _ _ _ => trivial⟩

/-- Once an end has been delivered nothing is owed. -/
theorem phase_over (r : Result T) (h : delivered log = true) :
    (phase T).Keeps s kinds before log r :=
  phase_keeps (Or.inr (Or.inr (Or.inr (Or.inr (delivered_act kinds log r.2 h)))))

/-- An entry that is neither a call of a stream nor a confirmation. -/
theorem RunningFirst.note (h : RunningFirst s kinds log) (n : Entry T Half (fun _ => T))
    (hc : t.continueWith = s.continueWith) (hu : t.upstreamSubscription = s.upstreamSubscription)
    (harrived : n.arrived 0 = none) (hfirst : n.confirms 0 = false)
    (hsecond : n.confirms 1 = false) (hsubscribes : n.subscribes = false) :
    RunningFirst t kinds (n :: log) := by
  refine ⟨List.cons_ne_nil _ _, hc.trans h.continueWith, h.kinds, ?_, ?_, ?_, ?_⟩
  · rw [arrived_cons, harrived, Option.toList_none, List.append_nil]
    exact h.open_
  · rw [confirmed_cons, hfirst, Bool.false_or, hu]
    exact h.upstream
  · rw [subscribed_cons, confirmed_cons, hfirst, hsubscribes, Bool.false_or, Bool.false_or]
    exact h.subscribed
  · rw [confirmed_cons, hsecond, Bool.false_or]
    exact h.unconfirmed

theorem RunningSecond.note (h : RunningSecond s kinds log) (n : Entry T Half (fun _ => T))
    (hc : t.continueWith = s.continueWith) (hu : t.upstreamSubscription = s.upstreamSubscription)
    (hsecond : n.confirms 1 = false) : RunningSecond t kinds (n :: log) := by
  refine ⟨hc.trans h.continueWith, h.kinds, ?_, ?_, ?_⟩
  · rw [arrived_cons, ended_append, h.finished, Bool.true_or]
  · rw [confirmed_cons, h.confirmed, Bool.or_true]
  · rw [confirmed_cons, hsecond, Bool.false_or, hu]
    exact h.upstream

/-- The streams are known while an end has not been delivered. -/
def Known (s : ConcatStream) (kinds : List Half) (log : Log T Half (fun _ => T)) : Prop :=
  RunningFirst s kinds log ∨ RunningSecond s kinds log

theorem Known.note (h : Known s kinds log) (n : Entry T Half (fun _ => T))
    (hc : t.continueWith = s.continueWith) (hu : t.upstreamSubscription = s.upstreamSubscription)
    (harrived : n.arrived 0 = none) (hfirst : n.confirms 0 = false)
    (hsecond : n.confirms 1 = false) (hsubscribes : n.subscribes = false) :
    Known t kinds (n :: log) := by
  rcases h with hf | hs
  · exact Or.inl (hf.note n hc hu harrived hfirst hsecond hsubscribes)
  · exact Or.inr (hs.note n hc hu hsecond)

theorem Known.same (h : Known s kinds log) (hc : t.continueWith = s.continueWith)
    (hu : t.upstreamSubscription = s.upstreamSubscription) : Known t kinds log := by
  rcases h with hf | hs
  · exact Or.inl { hf with continueWith := hc.trans hf.continueWith, upstream := hu ▸ hf.upstream }
  · exact Or.inr { hs with continueWith := hc.trans hs.continueWith, upstream := hu ▸ hs.upstream }

theorem Known.core (h : Known s kinds log) : (phase T).Core s kinds log :=
  Or.inr (h.elim Or.inl fun hs => Or.inr (Or.inl hs))

theorem phase_release (h : Known t kinds log) : (phase T).Keeps s kinds before log t.release := by
  unfold release
  by_cases hkept : (t.selfLock || t.wrappers != 0 || t.created || t.hasEnded) = true
  · rw [if_pos hkept]
    exact phase_keeps (Or.inr h.core)
  · rw [if_neg hkept]
    exact phase_keeps (Or.inr (h.note (t := { t with hasEnded := true }) (.out .destroy)
      rfl rfl rfl rfl rfl rfl).core)

theorem phase_request (views : Nat → Bool) (n : Nat) (h : Known s kinds log) :
    (phase T).Keeps s kinds before log (s.request views n) := by
  have hmore : Known { s with requestBalance := s.requestBalance.add n } kinds log :=
    h.same rfl rfl
  unfold request
  split
  · exact phase_keeps (Or.inl ⟨_, rfl⟩)
  · next p hup =>
      by_cases hview : views p = true
      · rw [if_pos hview]
        exact phase_keeps (Or.inr hmore.core)
      · rw [if_neg hview]
        exact phase_keeps (Or.inr
          (hmore.note (.ask p (.request n)) rfl rfl rfl rfl rfl rfl).core)

theorem phase_cancel (views : Nat → Bool) (h : Known s kinds log) :
    (phase T).Keeps s kinds before log (s.cancel views) := by
  unfold cancel
  cases s.upstreamSubscription with
  | none => exact phase_keeps (Or.inl ⟨_, rfl⟩)
  | some p =>
      simp only
      by_cases hview : views p = true
      · rw [if_pos hview]
        exact phase_keeps (Or.inr h.core)
      · rw [if_neg hview]
        exact phase_keeps (Or.inr (h.note (.ask p .cancel) rfl rfl rfl rfl rfl rfl).core)

/-- The first stream confirms, and the subscriber is given the subscription. -/
theorem phase_onSubscribe_first (h : RunningFirst s kinds log) (hconf : confirmed 0 log = false) :
    (phase T).Keeps s kinds before (.said 0 .first .onSubscribe :: log) (s.onSubscribe 0) := by
  have hup : s.upstreamSubscription.isSome = false := h.upstream.trans hconf
  unfold onSubscribe
  have hfirst : isRunningFirst { s with upstreamSubscription := some 0 } = true := h.continueWith
  rw [hup, Bool.false_and, if_neg Bool.false_ne_true, if_pos hfirst]
  exact phase_keeps (Or.inr (Or.inr (Or.inl
    ⟨List.cons_ne_nil _ _, h.continueWith, h.kinds, h.open_, rfl, rfl, h.unconfirmed⟩)))

/-- The second stream confirms, and may be asked at once. -/
theorem phase_onSubscribe_second (h : RunningSecond s kinds log) :
    (phase T).Keeps s kinds before (.said 1 .second .onSubscribe :: log) (s.onSubscribe 1) := by
  have hsecond : RunningSecond { s with upstreamSubscription := some 1 } kinds
      (.said 1 .second .onSubscribe :: log) :=
    ⟨h.continueWith, h.kinds, h.finished, h.confirmed, rfl⟩
  have hfirst : isRunningFirst { s with upstreamSubscription := some 1 } = false := h.continueWith
  have hno : ¬ (s.upstreamSubscription.isSome && s.isRunningFirst) = true := by
    rw [isRunningFirst, h.continueWith, Bool.and_false]
    exact Bool.false_ne_true
  unfold onSubscribe
  rw [if_neg hno]
  simp only [hfirst, Bool.false_eq_true, if_false]
  by_cases hrequests : s.requestBalance.hasRequests = true
  · rw [if_pos hrequests]
    exact phase_keeps (Or.inr (Or.inr (Or.inr (Or.inl
      (hsecond.note (.ask 1 (.request s.requestBalance.balance)) rfl rfl rfl)))))
  · rw [if_neg hrequests]
    exact phase_keeps (Or.inr (Or.inr (Or.inr (Or.inl hsecond))))

theorem phase_onNext_first (e : StatusOr T) (h : RunningFirst s kinds log)
    (hconf : confirmed 0 log = true) :
    (phase T).Keeps s kinds before (.said 0 .first (.onNext e) :: log) (s.onNext e) := by
  unfold onNext
  cases hend : e.isEnd with
  | false =>
      simp only [Bool.not_false, if_true]
      have hcode : e.code = .ok := by simpa only [StatusOr.isEnd, bne_eq_false_iff_eq] using hend
      cases s.requestBalance.remove 1 with
      | none => exact phase_keeps (Or.inl ⟨_, rfl⟩)
      | some b =>
          refine phase_keeps (Or.inr (Or.inr (Or.inl
            ⟨List.cons_ne_nil _ _, h.continueWith, h.kinds, ?_, h.upstream, h.subscribed,
              h.unconfirmed⟩)))
          change ended (arrived 0 (.said 0 .first (.onNext e) :: log)) = false
          rw [arrived_cons, ended_append, h.open_]
          simp only [Entry.arrived, if_true, Signal.event?, Option.map_some, Option.toList_some,
            ended_singleton, hcode, bne_self_eq_false, Bool.or_self]
  | true =>
      simp only [Bool.not_true, Bool.false_eq_true, if_false]
      by_cases hlast : (e.isError || !s.isRunningFirst) = true
      · rw [if_pos hlast]
        exact phase_keeps (Or.inr (Or.inr (Or.inr (Or.inr (delivered_end e _ hend)))))
      · rw [if_neg hlast]
        refine phase_keeps (Or.inr (Or.inr (Or.inr (Or.inl
          ⟨rfl, congrArg (· ++ [Half.second]) h.kinds, ?_, ?_, ?_⟩))))
        · change ended (arrived 0 (.said 0 .first (.onNext e) :: log)) = true
          rw [arrived_cons, ended_append]
          have hcode : (e.code != .ok) = true := hend
          simp only [Entry.arrived, if_true, Signal.event?, Option.map_some, Option.toList_some,
            ended_singleton, hcode, Bool.or_true]
        · exact hconf
        · exact h.unconfirmed.symm

theorem phase_onNext_second (e : StatusOr T) (h : RunningSecond s kinds log) :
    (phase T).Keeps s kinds before (.said 1 .second (.onNext e) :: log) (s.onNext e) := by
  have hsecond := h.note (t := s) (.said 1 .second (.onNext e)) rfl rfl rfl
  have hlast : (e.isError || !s.isRunningFirst) = true := by
    rw [isRunningFirst, h.continueWith, Bool.not_false, Bool.or_true]
  unfold onNext
  cases hend : e.isEnd with
  | false =>
      simp only [Bool.not_false, if_true]
      cases s.requestBalance.remove 1 with
      | none => exact phase_keeps (Or.inl ⟨_, rfl⟩)
      | some b =>
          exact phase_keeps (Or.inr (Or.inr (Or.inr (Or.inl
            (hsecond.note (t := { s with requestBalance := b }) (.out (.onNext e)) rfl rfl rfl)))))
  | true =>
      simp only [Bool.not_true, Bool.false_eq_true, if_false]
      rw [if_pos hlast]
      exact phase_keeps (Or.inr (Or.inr (Or.inr (Or.inr (delivered_end e _ hend)))))

theorem RunningFirst.part (h : RunningFirst s kinds log) (p : Nat) (i : Half)
    (kind : kinds[p]? = some i) : p = 0 ∧ i = .first := by
  rw [h.kinds] at kind
  match p with
  | 0 => exact ⟨rfl, (Option.some.inj kind).symm⟩
  | _ + 1 => exact absurd kind (by simp only [List.getElem?_cons_succ, List.getElem?_nil,
      reduceCtorEq, not_false_eq_true])

theorem RunningSecond.part (h : RunningSecond s kinds log) (p : Nat) (i : Half)
    (kind : kinds[p]? = some i) : p = 0 ∧ i = .first ∨ p = 1 ∧ i = .second := by
  rw [h.kinds] at kind
  match p with
  | 0 => exact Or.inl ⟨rfl, (Option.some.inj kind).symm⟩
  | 1 => exact Or.inr ⟨rfl, (Option.some.inj kind).symm⟩
  | _ + 2 => exact absurd kind (by simp only [List.getElem?_cons_succ, List.getElem?_nil,
      reduceCtorEq, not_false_eq_true])

/-- A stream that has ended sends no more. -/
theorem RunningSecond.not_strict (h : RunningSecond s kinds log) (n : Nat) (c : StatusCode) :
    ¬ Strict n (arrived 0 log ++ [c]) := by
  rw [strict_append]
  rintro ⟨-, hok⟩
  exact absurd (((ended_eq_false _).mpr hok).symm.trans h.finished) Bool.false_ne_true

theorem Known.started (h : Known s kinds log) : log ≠ [] := by
  intro hnil
  rcases h with hf | hs
  · exact hf.started hnil
  · have hconf := hs.confirmed
    rw [hnil] at hconf
    exact absurd hconf Bool.false_ne_true

end Phase

theorem phase_call (st : Open (component T)) (c : Call) (hok : PartnerRules st (.call c))
    (hknown : Known st.state st.kinds st.log) :
    (phase T).Keeps st.state st.kinds st.log (.call c :: st.log)
      ((component T).call st.views st.state c) := by
  have hnote : Known st.state st.kinds (.call c :: st.log) :=
    hknown.note (.call c) rfl rfl rfl rfl rfl rfl
  cases c with
  | subscribe => exact absurd (List.isEmpty_iff.mp hok) hknown.started
  | request n => exact phase_request _ n hnote
  | cancel => exact phase_cancel _ hnote

theorem phase_said (st : Open (component T)) (p : Nat) (i : Half) (o : Signal T)
    (hok : Protocol.stream p st.log o) (hkind : st.kinds[p]? = some i)
    (hknown : Known st.state st.kinds st.log) :
    (phase T).Keeps st.state st.kinds st.log (.said p i o :: st.log)
      ((component T).said st.views st.state p i o) := by
  cases o with
  | onSubscribe =>
      rcases hknown with hf | hs
      · rcases hf.part p i hkind with ⟨rfl, rfl⟩
        exact phase_onSubscribe_first hf hok.1
      · rcases hs.part p i hkind with ⟨rfl, rfl⟩ | ⟨rfl, rfl⟩
        · exact absurd (hok.1.symm.trans hs.confirmed) Bool.false_ne_true
        · exact phase_onSubscribe_second hs
  | onNext e =>
      rcases hknown with hf | hs
      · rcases hf.part p i hkind with ⟨rfl, rfl⟩
        exact phase_onNext_first e hf hok.1
      · rcases hs.part p i hkind with ⟨rfl, rfl⟩ | ⟨rfl, rfl⟩
        · exact absurd hok.2.2 (hs.not_strict _ _)
        · exact phase_onNext_second e hs
  | destroy =>
      exact phase_release (hknown.note (.said p i .destroy) rfl rfl (ite_self _) rfl rfl rfl)

theorem phase_reach (st : Open (component T))
    (h : Open.Reach subscriptionCheck PartnerRules st) : (phase T).Holds st := by
  refine (phase T).holds_reach subscriptionCheck PartnerRules (Or.inl ⟨rfl, rfl, rfl⟩) ?_ ?_ ?_ st h
  · intro st c _ hok _ hcore
    by_cases hdelivered : delivered st.log = true
    · exact phase_over _ (delivered_cons _ _ hdelivered)
    · rcases hcore with ⟨hnil, hkinds, hstart⟩ | hf | hs | hyes
      · -- the first call subscribes to the first stream
        rw [PartnerRules.first hok hnil, hnil, hkinds, hstart]
        exact phase_keeps (Or.inr (Or.inr (Or.inl
          ⟨List.cons_ne_nil _ _, rfl, rfl, rfl, rfl, rfl, rfl⟩)))
      · exact phase_call st c hok (Or.inl hf)
      · exact phase_call st c hok (Or.inr hs)
      · exact absurd hyes hdelivered
  · intro st p i o _ hok hkind hcore
    rcases hcore with ⟨-, hnil, -⟩ | hf | hs | hdelivered
    · rw [hnil] at hkind
      exact absurd hkind (by simp only [List.getElem?_nil, reduceCtorEq, not_false_eq_true])
    · exact phase_said st p i o hok hkind (Or.inl hf)
    · exact phase_said st p i o hok hkind (Or.inr hs)
    · exact phase_over _ (delivered_cons _ _ hdelivered)
  · intro st k hresumes hreach hcore _
    by_cases hdelivered : delivered st.log = true
    · exact phase_over _ hdelivered
    · have hknown : Known st.state st.kinds st.log := by
        rcases hcore with ⟨hnil, -⟩ | hf | hs | hyes
        · exact absurd hnil (hresumes.log_ne_nil hreach)
        · exact Or.inl hf
        · exact Or.inr hs
        · exact absurd hyes hdelivered
      cases k with
      | done => exact phase_keeps (Or.inr hknown.core)
      | subscribed => exact phase_release (hknown.same rfl rfl)
      | selfDestruct => exact phase_release (hknown.same rfl rfl)

/-- There is an upstream subscription, unless the first stream is done and the
    second one has not confirmed. -/
theorem upstream_iff (st : Open (component T))
    (h : Open.Reach subscriptionCheck PartnerRules st) (hrunning : st.turn.isFailed = false)
    (hsubscribed : subscribed st.log = true) (hrun : delivered st.log = false) :
    st.state.upstreamSubscription.isSome = true ↔
      (ended (arrived 0 st.log) = true → confirmed 1 st.log = true) := by
  rcases phase_reach st h with ⟨-, hcore, -⟩ | ⟨hfailed, -⟩
  · rcases hcore with ⟨hnil, -⟩ | hf | hs | hdelivered
    · rw [hnil] at hsubscribed
      exact absurd hsubscribed Bool.false_ne_true
    · rw [hf.upstream, ← hf.subscribed, hsubscribed, hf.open_]
      exact ⟨fun _ hend => absurd hend Bool.false_ne_true, fun _ => rfl⟩
    · rw [hs.upstream, hs.finished]
      exact ⟨fun hconf _ => hconf, fun hconf => hconf rfl⟩
    · exact absurd (hrun.symm.trans hdelivered) Bool.false_ne_true
  · exact absurd (hrunning.symm.trans hfailed) Bool.false_ne_true

/-- The state after a call of the subscriber. -/
def called (st : Open (component T)) (c : Call) : Open (component T) :=
  Open.perform subscriptionCheck { st with log := .call c :: st.log }
    ((component T).call st.views st.state c)

/-- What it is for a call to be accepted: it fails no check, and if it is a
    cancellation it is honoured and nobody is subscribed any more. -/
structure Accepts (st : Open (component T)) (c : Call) : Prop where
  passed : (called st c).turn.isFailed = false
  honoured : c = .cancel → CancelHonoured PartnerRules st
  alone : c = .cancel → ∀ later, Open.Later subscriptionCheck PartnerRules (called st c) later →
    later.kinds = st.kinds

/-- A request fails no check exactly when there is an upstream
    subscription. -/
theorem request_passed (st : Open (component T)) (n : Nat) :
    (called st (.request n)).turn.isFailed = false ↔
      st.state.upstreamSubscription.isSome = true := by
  unfold called
  cases hup : st.state.upstreamSubscription with
  | none =>
      simp only [component, request, hup, Open.perform_fail, Turn.isFailed, Option.isSome_none,
        Bool.true_eq_false, Bool.false_eq_true]
  | some p =>
      cases hview : st.views p with
      | true =>
          simp only [component, request, hup, hview, if_true, Open.perform_ret, Turn.isFailed,
            Option.isSome_some]
      | false =>
          simp only [component, request, hup, hview, Bool.false_eq_true, if_false]
          rw [Open.perform_ask _ _ _ _ _ _ (by rw [hview]; rfl)]
          simp only [Turn.isFailed, Option.isSome_some]

/-- The calls that are accepted: requests, unless the first stream is done and
    the second one has not confirmed. -/
theorem accepts_iff (st : Open (component T))
    (h : Open.Reach subscriptionCheck PartnerRules st) (hturn : st.turn = .outside)
    (hopen : st.state.hasEnded = false) (hsubscribed : subscribed st.log = true)
    (hrun : delivered st.log = false) (c : Call) (hok : PartnerRules st (.call c)) :
    Accepts st c ↔
      c ≠ .cancel ∧ (ended (arrived 0 st.log) = true → confirmed 1 st.log = true) := by
  have hrunning : st.turn.isFailed = false := by rw [hturn]; rfl
  have hiff := upstream_iff st h hrunning hsubscribed hrun
  cases c with
  | subscribe =>
      have hnil := List.isEmpty_iff.mp hok
      rw [hnil] at hsubscribed
      exact absurd hsubscribed Bool.false_ne_true
  | request n =>
      constructor
      · intro haccepts
        refine ⟨by simp only [ne_eq, reduceCtorEq, not_false_eq_true], hiff.mp ?_⟩
        exact (request_passed st n).mp haccepts.passed
      · rintro ⟨-, hwindow⟩
        refine ⟨(request_passed st n).mpr (hiff.mpr hwindow), fun heq => ?_, fun heq => ?_⟩
        · exact absurd heq (by simp only [reduceCtorEq, not_false_eq_true])
        · exact absurd heq (by simp only [reduceCtorEq, not_false_eq_true])
  | cancel =>
      constructor
      · intro haccepts
        exact absurd (haccepts.honoured rfl) ((lock T).not_honoured PartnerRules lock_reach st h
          hturn hopen hsubscribed hrun)
      · rintro ⟨hne, -⟩
        exact absurd rfl hne

/-- The first stream is done, and the second confirms later. -/
def switchingMoves : List (Move Call Bool Half (fun _ => Signal Nat)) :=
  [ .call .subscribe, .said 0 .first .onSubscribe, .call (.request 1), .reply, .reply, .reply,
    .view 0 true, .said 0 .first (.onNext .done), .reply, .said 0 .first .destroy ]

/-- The first stream runs, and one token was requested. -/
def runningMoves : List (Move Call Bool Half (fun _ => Signal Nat)) :=
  [ .call .subscribe, .said 0 .first .onSubscribe, .call (.request 1), .reply, .reply, .reply ]

theorem accepts_iff_running : ∃ st : Open (component Nat),
    Open.Reach subscriptionCheck PartnerRules st ∧ Accepts st (.request 1) := by
  rcases Open.exists_reach_of_play subscriptionCheck PartnerRules runningMoves
    (fun (st : Open (component Nat)) => st.turn.isOutside && !st.state.hasEnded &&
      subscribed st.log && !delivered st.log && !ended (arrived 0 st.log))
    (by decide +kernel) with ⟨st, hst, htest⟩
  simp only [Bool.and_eq_true, Bool.not_eq_true', Turn.isOutside_iff] at htest
  rcases htest with ⟨⟨⟨⟨hturn, hopen⟩, hsubscribed⟩, hrun⟩, hend⟩
  refine ⟨st, hst, (accepts_iff st hst hturn hopen hsubscribed hrun (.request 1)
    ⟨hsubscribed, by decide, by decide⟩).mpr ⟨?_, fun hyes => ?_⟩⟩
  · simp only [ne_eq, reduceCtorEq, not_false_eq_true]
  · exact absurd (hend.symm.trans hyes) Bool.false_ne_true

/-- While the second stream has not confirmed, a request and a cancellation
    fail a check. -/
theorem request_switching : ∃ st : Open (component Nat),
    Open.Reach subscriptionCheck PartnerRules st ∧ st.turn = .outside ∧
      st.state.hasEnded = false ∧ subscribed st.log = true ∧ delivered st.log = false ∧
      (∀ c, c = .request 1 ∨ c = .cancel → PartnerRules st (.call c) ∧
        (called st c).turn = .failed "OnSubscribe has never been called" ∧ ¬ Accepts st c) := by
  rcases Open.exists_reach_of_play subscriptionCheck PartnerRules switchingMoves
    (fun (st : Open (component Nat)) => st.turn.isOutside && !st.state.hasEnded &&
      subscribed st.log && !delivered st.log && st.state.upstreamSubscription == none)
    (by decide +kernel) with ⟨st, hst, htest⟩
  simp only [Bool.and_eq_true, Bool.not_eq_true', Turn.isOutside_iff, beq_iff_eq] at htest
  rcases htest with ⟨⟨⟨⟨hturn, hopen⟩, hsubscribed⟩, hrun⟩, hnone⟩
  refine ⟨st, hst, hturn, hopen, hsubscribed, hrun, fun c hc => ?_⟩
  have hfails : (called st c).turn = .failed "OnSubscribe has never been called" := by
    rcases hc with rfl | rfl
    · simp only [called, component, request, hnone, Open.perform_fail]
    · simp only [called, component, cancel, hnone, Open.perform_fail]
  refine ⟨?_, hfails, fun haccepts => ?_⟩
  · rcases hc with rfl | rfl
    · exact ⟨hsubscribed, by decide, by decide⟩
    · exact hsubscribed
  · have hpassed := haccepts.passed
    rw [hfails] at hpassed
    exact absurd hpassed (by simp only [Turn.isFailed, Bool.true_eq_false, not_false_eq_true])

end ConcatStream

end RxCppUniq
