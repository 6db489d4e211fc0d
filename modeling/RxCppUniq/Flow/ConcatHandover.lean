import RxCppUniq.Reactive.Concat

/-!
# Handing Demand over in Concat

`ConcatStream` between two streams with strict flow control and a subscriber
that only requests. The streams answer when they like, and either may have
ended its subscription while its last event is still on the way.

A run goes through four stages, told apart by whether `continue_with_` has
been moved and whether the second stream has confirmed its subscription. The
invariant says of each what has come in, what has gone out and what was
asked, and of all of them that the balance is the demand less the values.

## Main definitions

* `ConcatStream.Rules`: What the partners may do.
* `ConcatStream.Inv`: The invariant.

## Theorems

* `ConcatStream.inv_step`: The invariant is kept by every step.
* `ConcatStream.handover`: Events are forwarded in order, and the second
  stream is asked for exactly what the first left over.
-/

namespace RxCppUniq

open Theory

namespace ConcatStream

variable {T : Type}

/-- While the second stream is being subscribed, it confirms the subscription
    before anything else is done with this stream. -/
def SecondConfirms (st : Open (component T)) : Prop :=
  st.stack.head?.map Prod.fst = some (.part 1) → confirmed 1 st.log = true

instance (st : Open (component T)) : Decidable (SecondConfirms st) :=
  inferInstanceAs (Decidable (_ → _))

/-- The rules for the partners of a `ConcatStream`. The subscriber requests
    less than `kMax` in total and does not cancel, the streams have strict
    flow control, the second one confirms its subscription within the call
    that subscribes it, and a stream may end its subscription as soon as it
    may send its last event. -/
def Rules (st : Open (component T)) : Move Call Bool Half (fun _ => Signal T) → Prop
  | .call c =>
      Protocol.subscriber st.log c ∧ SecondConfirms st ∧ c ≠ .cancel ∧
        demand st.log + c.count < kMax
  | .said p _ s => Protocol.stream p st.log s
  | .reply => SecondConfirms st
  | .view p v => v = true ∧
      (ended (arrived p st.log) = true ∨ (arrived p st.log).length < tokens p st.log)
  | .run => True

instance (st : Open (component T)) (m : Move Call Bool Half (fun _ => Signal T)) :
    Decidable (Rules st m) :=
  match m with
  | .call _ => inferInstanceAs (Decidable (_ ∧ _ ∧ _ ∧ _))
  | .said _ _ _ => inferInstanceAs (Decidable (Protocol.stream _ _ _))
  | .reply => inferInstanceAs (Decidable (SecondConfirms st))
  | .view _ _ => inferInstanceAs (Decidable (_ ∧ _))
  | .run => inferInstanceAs (Decidable True)

/-- Nobody has subscribed yet. -/
structure Fresh (st : Open (component T)) : Prop where
  log : st.log = []
  kinds : st.kinds = []
  stack : st.stack = []
  state : st.state = {}
  view : st.views 1 = false

/-- The first stream is running, or has ended with an error. -/
structure First (st : Open (component T)) : Prop where
  started : st.log ≠ []
  continueWith : st.state.continueWith = true
  kinds : st.kinds = [.first]
  unheard : heard 1 st.log = []
  unconfirmed : confirmed 1 st.log = false
  unasked : tokens 1 st.log = 0
  view : st.views 1 = false
  upstream : st.state.upstreamSubscription = if confirmed 0 st.log then some 0 else none
  subscribed : RxCppUniq.subscribed st.log = confirmed 0 st.log
  received : RxCppUniq.received st.log = heard 0 st.log
  notDone : ∀ e ∈ heard 0 st.log, e.isDone = false
  orderly : ∀ e ∈ (heard 0 st.log).dropLast, e.isEnd = false
  within : tokens 0 st.log ≤ demand st.log

/-- The first stream is done: its values have been forwarded, its `Done` has
    not. -/
structure Switched (st : Open (component T)) : Prop where
  continueWith : st.state.continueWith = false
  kinds : st.kinds = [.first, .second]
  confirmed : confirmed 0 st.log = true
  finished : ∃ vs e, heard 0 st.log = vs ++ [e] ∧ e.isDone = true ∧ ∀ v ∈ vs, v.isEnd = false
  received : RxCppUniq.received st.log =
    (heard 0 st.log).filter (!·.isDone) ++ heard 1 st.log

/-- The second stream is being subscribed and has not confirmed it yet. -/
structure Switching (st : Open (component T)) : Prop extends Switched st where
  unheard : heard 1 st.log = []
  unconfirmed : RxCppUniq.confirmed 1 st.log = false
  unasked : tokens 1 st.log = 0
  view : st.views 1 = false
  locked : st.state.selfLock = true
  inside : st.stack.head?.map Prod.fst = some (.part 1)

/-- The second stream is running or has ended. -/
structure Second (st : Open (component T)) : Prop extends Switched st where
  confirmedSecond : RxCppUniq.confirmed 1 st.log = true
  upstream : st.state.upstreamSubscription = some 1
  within : tokens 1 st.log + values (heard 0 st.log) ≤ demand st.log
  exact : st.views 1 = false → tokens 1 st.log + values (heard 0 st.log) = demand st.log

structure Inv (st : Open (component T)) : Prop where
  outside : st.turn = .outside
  fits : demand st.log < kMax
  balance : st.state.requestBalance.balance + values (heard 0 st.log) +
    values (heard 1 st.log) = demand st.log
  stage : Fresh st ∨ First st ∨ Switching st ∨ Second st

theorem inv_init : Inv (Open.init (component T)) := by
  refine ⟨rfl, ?_, rfl, Or.inl ⟨rfl, rfl, rfl, rfl, rfl⟩⟩
  simp only [Open.init, demand_nil, kMax]
  decide

theorem Switched.started {st : Open (component T)} (h : Switched st) : st.log ≠ [] := by
  intro hlog
  have hc := h.confirmed
  rw [hlog, confirmed_nil] at hc
  exact Bool.false_ne_true hc

theorem First.part {st : Open (component T)} (h : First st) (p : Nat) (i : Half)
    (kind : st.kinds[p]? = some i) : p = 0 ∧ i = .first := by
  rw [h.kinds] at kind
  match p with
  | 0 => exact ⟨rfl, (Option.some.inj kind).symm⟩
  | _ + 1 => exact absurd kind (by simp)

theorem Switched.part {st : Open (component T)} (h : Switched st) (p : Nat) (i : Half)
    (kind : st.kinds[p]? = some i) : p = 0 ∧ i = .first ∨ p = 1 ∧ i = .second := by
  rw [h.kinds] at kind
  match p with
  | 0 => exact Or.inl ⟨rfl, (Option.some.inj kind).symm⟩
  | 1 => exact Or.inr ⟨rfl, (Option.some.inj kind).symm⟩
  | _ + 2 => exact absurd kind (by simp)

/-- The first stream is silent after its `Done`. -/
theorem Switched.not_strict {st : Open (component T)} (h : Switched st) (n : Nat)
    (c : StatusCode) : ¬ Strict n (arrived 0 st.log ++ [c]) := by
  rcases h.finished with ⟨vs, e, hheard, hdone, -⟩
  rw [strict_append]
  rintro ⟨-, hok⟩
  have hcode : e.code = .ok :=
    hok _ (by rw [arrived_eq_heard, hheard]; simp)
  rw [StatusOr.isDone, hcode] at hdone
  exact absurd hdone (by decide)

/-- Nothing else is done with the stream while the second one is being
    subscribed. -/
theorem Switching.not_confirms {st : Open (component T)} (h : Switching st)
    (hc : SecondConfirms st) : False :=
  absurd ((hc h.inside).symm.trans h.unconfirmed) (by decide)

theorem inv_subscribe (st : Open (component T)) (h : Inv st) (hlog : st.log = []) :
    Inv (Open.perform subscriptionCheck { st with log := .call .subscribe :: st.log }
      ((component T).call st.views st.state .subscribe)) := by
  rcases h.stage with hf | hf | hf | hf
  · simp only [component, subscribeNext, Open.perform_make, hf.state, hf.kinds, hf.stack, hf.log,
      List.length_nil, List.nil_append]
    refine ⟨rfl, ?_, rfl, Or.inr (Or.inl ⟨List.cons_ne_nil _ _, rfl, rfl, rfl, rfl, rfl, hf.view,
      rfl, rfl, rfl, fun e he => absurd he List.not_mem_nil,
      fun e he => absurd he List.not_mem_nil, Nat.le_refl _⟩)⟩
    have := h.fits
    rwa [hlog] at this
  · exact absurd hlog hf.started
  · exact absurd hlog hf.started
  · exact absurd hlog hf.started

theorem inv_request (st : Open (component T)) (n : Nat) (h : Inv st)
    (hok : Rules st (.call (.request n))) :
    Inv (Open.perform subscriptionCheck { st with log := .call (.request n) :: st.log }
      ((component T).call st.views st.state (.request n))) := by
  rcases hok with ⟨⟨hsub, -, -⟩, hconfirms, -, hfits⟩
  have hbal := h.balance
  simp only [Call.count] at hfits
  have hadd : (st.state.requestBalance.add n).balance = st.state.requestBalance.balance + n :=
    RequestBalance.balance_add_of_lt _ _ (by omega)
  have hbal' : (st.state.requestBalance.add n).balance + values (heard 0 st.log) +
      values (heard 1 st.log) = demand st.log + n := by omega
  -- the request goes to the stream that runs; while the second is set up none may come
  rcases h.stage with hf | hf | hf | hf
  · rw [hf.log, subscribed_nil] at hsub
    exact absurd hsub Bool.false_ne_true
  · have hup' : some 0 = if confirmed 0 st.log then some 0 else none := by
      rw [← hf.subscribed, hsub, if_pos rfl]
    have hup := hf.upstream.trans hup'.symm
    cases hv : st.views 0 with
    | true =>
        simp only [component, request, hup, hv, if_true, Open.perform_ret]
        exact ⟨rfl, hfits, hbal', Or.inr (Or.inl
          { hf with started := List.cons_ne_nil _ _, upstream := hup'
                    within := Nat.le_add_right_of_le hf.within })⟩
    | false =>
        simp only [component, request, hup, hv, if_false, Bool.false_eq_true]
        rw [Open.perform_ask _ _ _ _ _ _ (by simp only [hv, subscriptionCheck_false])]
        exact ⟨rfl, hfits, hbal', Or.inr (Or.inl
          { hf with started := List.cons_ne_nil _ _, upstream := hup'
                    within := Nat.add_le_add_right hf.within n })⟩
  · exact (hf.not_confirms hconfirms).elim
  · have hw := hf.within
    cases hv : st.views 1 with
    | true =>
        simp only [component, request, hf.upstream, hv, if_true, Open.perform_ret]
        exact ⟨rfl, hfits, hbal', Or.inr (Or.inr (Or.inr
          { hf with upstream := rfl
                    within := Nat.le_add_right_of_le hf.within
                    exact := fun hv' => absurd (hv.symm.trans hv') (by decide) }))⟩
    | false =>
        -- the demand of the second is what is left of the demand
        have hexact := hf.exact hv
        simp only [component, request, hf.upstream, hv, if_false, Bool.false_eq_true]
        rw [Open.perform_ask _ _ _ _ _ _ (by simp only [hv, subscriptionCheck_false])]
        have htok : tokens 1 st.log + n + values (heard 0 st.log) = demand st.log + n := by omega
        exact ⟨rfl, hfits, hbal', Or.inr (Or.inr (Or.inr
          { hf with upstream := rfl
                    within := Nat.le_of_eq htok
                    exact := fun _ => htok }))⟩

theorem inv_onSubscribe (st : Open (component T)) (p : Nat) (i : Half) (h : Inv st)
    (kind : st.kinds[p]? = some i) (hok : Rules st (.said p i .onSubscribe)) :
    Inv (Open.perform subscriptionCheck { st with log := .said p i .onSubscribe :: st.log }
      ((component T).said st.views st.state p i .onSubscribe)) := by
  rcases hok with ⟨hconf, -⟩
  have hbal := h.balance
  have hfits := h.fits
  rcases h.stage with hf | hf | hf | hf
  · exact absurd kind (by simp [hf.kinds])
  · rcases hf.part p i kind with ⟨rfl, rfl⟩
    have hup : st.state.upstreamSubscription = none := by
      rw [hf.upstream, hconf]; rfl
    simp only [component, onSubscribe, hup, Option.isSome_none, Bool.false_and,
      Bool.false_eq_true, if_false, isRunningFirst, hf.continueWith, if_true, Open.perform_out]
    exact ⟨rfl, hfits, hbal, Or.inr (Or.inl
      { hf with started := List.cons_ne_nil _ _, continueWith := rfl
                upstream := by simp, subscribed := by simp
                received := by simpa using hf.received })⟩
  · rcases hf.part p i kind with ⟨rfl, rfl⟩ | ⟨rfl, rfl⟩
    · exact absurd (hconf.symm.trans hf.confirmed) (by decide)
    · have hvals : values (heard 1 st.log) = 0 := by rw [hf.unheard, values_nil]
      -- the second is asked for what the first has left of the demand
      by_cases hpos : 0 < st.state.requestBalance.balance
      · simp only [component, onSubscribe, isRunningFirst, hf.continueWith, Bool.and_false,
          Bool.false_eq_true, if_false, RequestBalance.hasRequests, hpos, decide_true, if_true]
        rw [Open.perform_ask _ _ _ _ _ _ (by simp only [hf.view, subscriptionCheck_false])]
        have htok : tokens 1 st.log + st.state.requestBalance.balance +
            values (heard 0 st.log) = demand st.log := by
          have := hf.unasked
          omega
        exact ⟨rfl, hfits, by simpa using hbal, Or.inr (Or.inr (Or.inr
          { hf with continueWith := rfl
                    finished := by simpa using hf.finished
                    received := by simpa using hf.received
                    confirmed := by simp [hf.confirmed]
                    confirmedSecond := by simp, upstream := rfl
                    within := by simpa using Nat.le_of_eq htok
                    exact := by simpa using fun _ => htok }))⟩
      · simp only [component, onSubscribe, isRunningFirst, hf.continueWith, Bool.and_false,
          Bool.false_eq_true, if_false, RequestBalance.hasRequests, hpos, decide_false,
          Open.perform_ret]
        have htok : tokens 1 st.log + values (heard 0 st.log) = demand st.log := by
          have := hf.unasked
          omega
        exact ⟨rfl, hfits, by simpa using hbal, Or.inr (Or.inr (Or.inr
          { hf with continueWith := rfl
                    finished := by simpa using hf.finished
                    received := by simpa using hf.received
                    confirmed := by simp [hf.confirmed]
                    confirmedSecond := by simp, upstream := rfl
                    within := by simpa using Nat.le_of_eq htok
                    exact := by simpa using fun _ => htok }))⟩
  · rcases hf.part p i kind with ⟨rfl, rfl⟩ | ⟨rfl, rfl⟩
    · exact absurd (hconf.symm.trans hf.confirmed) (by decide)
    · exact absurd (hconf.symm.trans hf.confirmedSecond) (by decide)

theorem inv_onNext_first (st : Open (component T)) (e : StatusOr T) (h : Inv st)
    (hf : First st) (hconf : confirmed 0 st.log = true)
    (hstrict : Strict (tokens 0 st.log) (arrived 0 st.log ++ [e.code])) :
    Inv (Open.perform subscriptionCheck { st with log := .said 0 .first (.onNext e) :: st.log }
      ((component T).said st.views st.state 0 .first (.onNext e))) := by
  have hbal := h.balance
  have hfits := h.fits
  have hwithin := hf.within
  have hvals := values_le_length (heard 0 st.log)
  have hvals' : values (heard 1 st.log) = 0 := by rw [hf.unheard, values_nil]
  rw [strict_append, arrived_eq_heard, List.length_map] at hstrict
  rcases hstrict with ⟨hleft, hok⟩
  -- what came before this event was no end
  have hvalues : ∀ v ∈ heard 0 st.log, v.isEnd = false := fun v hv => by
    simp only [StatusOr.isEnd, hok _ (List.mem_map_of_mem hv), bne_self_eq_false]
  cases e with
  | value v =>
      rcases RequestBalance.remove_isSome st.state.requestBalance (by omega) with ⟨b, hb⟩
      have hsub := RequestBalance.remove_of_lt _ _ _ (by omega) hb
      simp only [component, onNext, StatusOr.isEnd_value, Bool.not_false, if_true, hb,
        Open.perform_out]
      refine ⟨rfl, hfits, ?_, Or.inr (Or.inl
        { hf with started := List.cons_ne_nil _ _, unheard := by simpa using hf.unheard
                  received := by simp [hf.received], notDone := ?_
                  orderly := by simpa using hvalues })⟩
      · simp
        omega
      · simpa [or_imp, forall_and] using hf.notDone
  | status s hs =>
      cases hd : s.code == .outOfRange with
      | false =>
          simp only [component, onNext, StatusOr.isEnd_status, Bool.not_true, Bool.false_eq_true,
            if_false, StatusOr.isError_status, hd, Bool.not_false, Bool.true_or, if_true,
            Open.perform_out]
          refine ⟨rfl, hfits, by simpa using hbal, Or.inr (Or.inl
            { hf with started := List.cons_ne_nil _ _, unheard := by simpa using hf.unheard
                      received := by simp [hf.received], notDone := ?_
                      orderly := by simpa using hvalues })⟩
          simpa [or_imp, forall_and, hd] using hf.notDone
      -- the Done is dropped, and the second stream is subscribed to
      | true =>
          simp only [component, onNext, StatusOr.isEnd_status, Bool.not_true, Bool.false_eq_true,
            if_false, StatusOr.isError_status, hd, isRunningFirst, hf.continueWith,
            Bool.or_self, subscribeNext, Open.perform_make, hf.kinds, List.length_singleton]
          refine ⟨rfl, hfits, by simpa using hbal, Or.inr (Or.inr (Or.inl
            { continueWith := rfl, kinds := rfl, confirmed := by simp [hconf]
              finished := ⟨heard 0 st.log, .status s hs, by simp, hd, hvalues⟩, received := ?_
              unheard := by simpa using hf.unheard
              unconfirmed := by simpa using hf.unconfirmed
              unasked := by simpa using hf.unasked
              view := hf.view, locked := rfl, inside := rfl }))⟩
          have hkeep : (heard 0 st.log).filter (!·.isDone) = heard 0 st.log :=
            List.filter_eq_self.mpr fun e he => by rw [hf.notDone e he]; rfl
          simp [hf.received, hf.unheard, hkeep, hd]

theorem inv_onNext_second (st : Open (component T)) (e : StatusOr T) (h : Inv st)
    (hf : Second st) (hstrict : Strict (tokens 1 st.log) (arrived 1 st.log ++ [e.code])) :
    Inv (Open.perform subscriptionCheck { st with log := .said 1 .second (.onNext e) :: st.log }
      ((component T).said st.views st.state 1 .second (.onNext e))) := by
  have hbal := h.balance
  have hfits := h.fits
  have hwithin := hf.within
  have hvals := values_le_length (heard 1 st.log)
  rw [strict_append, arrived_eq_heard, List.length_map] at hstrict
  rcases hstrict with ⟨hleft, -⟩
  cases e with
  | value v =>
      rcases RequestBalance.remove_isSome st.state.requestBalance (by omega) with ⟨b, hb⟩
      have hsub := RequestBalance.remove_of_lt _ _ _ (by omega) hb
      simp only [component, onNext, StatusOr.isEnd_value, Bool.not_false, if_true, hb,
        Open.perform_out]
      -- the value is delivered and counted
      refine ⟨rfl, hfits, ?_, Or.inr (Or.inr (Or.inr
        { hf with finished := by simpa using hf.finished
                  received := by simp [hf.received]
                  within := by simpa using hf.within
                  exact := by simpa using hf.exact }))⟩
      simp
      omega
  | status s hs =>
      simp only [component, onNext, StatusOr.isEnd_status, Bool.not_true, Bool.false_eq_true,
        if_false, isRunningFirst, hf.continueWith, Bool.not_false, Bool.or_true, if_true,
        Open.perform_out]
      exact ⟨rfl, hfits, by simpa using hbal, Or.inr (Or.inr (Or.inr
        { hf with finished := by simpa using hf.finished
                  received := by simp [hf.received]
                  within := by simpa using hf.within
                  exact := by simpa using hf.exact }))⟩

theorem inv_onNext (st : Open (component T)) (p : Nat) (i : Half) (e : StatusOr T)
    (h : Inv st) (kind : st.kinds[p]? = some i) (hok : Rules st (.said p i (.onNext e))) :
    Inv (Open.perform subscriptionCheck { st with log := .said p i (.onNext e) :: st.log }
      ((component T).said st.views st.state p i (.onNext e))) := by
  rcases hok with ⟨hconf, -, hstrict⟩
  have hbal := h.balance
  have hfits := h.fits
  rcases h.stage with hf | hf | hf | hf
  · exact absurd kind (by simp [hf.kinds])
  · rcases hf.part p i kind with ⟨rfl, rfl⟩
    exact inv_onNext_first st e h hf hconf hstrict
  · rcases hf.part p i kind with ⟨rfl, rfl⟩ | ⟨rfl, rfl⟩
    · exact absurd hstrict (hf.not_strict _ _)
    · exact absurd (hconf.symm.trans hf.unconfirmed) (by decide)
  · rcases hf.part p i kind with ⟨rfl, rfl⟩ | ⟨rfl, rfl⟩
    · exact absurd hstrict (hf.not_strict _ _)
    · exact inv_onNext_second st e h hf hstrict

/-- Letting go of the object changes nothing the invariant is about. -/
theorem inv_release (st : Open (component T)) (s : ConcatStream) (h : Inv st)
    (started : st.log ≠ []) (hc : s.continueWith = st.state.continueWith)
    (hu : s.upstreamSubscription = st.state.upstreamSubscription)
    (hb : s.requestBalance = st.state.requestBalance)
    (hl : Switching st → s.selfLock = true) :
    Inv (Open.perform subscriptionCheck st (release s)) := by
  have hbal := h.balance
  rw [← hb] at hbal
  have hfits := h.fits
  -- while the second is set up the lock holds the object
  by_cases hrel : (s.selfLock || s.wrappers != 0 || s.created || s.hasEnded) = true
  · simp only [release, hrel, if_true, Open.perform_ret]
    refine ⟨rfl, hfits, hbal, ?_⟩
    rcases h.stage with hf | hf | hf | hf
    · exact absurd hf.log started
    · exact Or.inr (Or.inl
        { hf with continueWith := hc.trans hf.continueWith, upstream := hu.trans hf.upstream })
    · exact Or.inr (Or.inr (Or.inl
        { hf with continueWith := hc.trans hf.continueWith, locked := hl hf }))
    · exact Or.inr (Or.inr (Or.inr
        { hf with continueWith := hc.trans hf.continueWith, upstream := hu.trans hf.upstream }))
  · simp only [release, hrel, if_false, Bool.false_eq_true, Open.perform_out]
    refine ⟨rfl, hfits, hbal, ?_⟩
    rcases h.stage with hf | hf | hf | hf
    · exact absurd hf.log started
    · exact Or.inr (Or.inl
        { hf with started := List.cons_ne_nil _ _, continueWith := hc.trans hf.continueWith
                  upstream := hu.trans hf.upstream, received := by simpa using hf.received })
    · exact absurd (by simp only [hl hf, Bool.true_or]) hrel
    · exact Or.inr (Or.inr (Or.inr
        { hf with continueWith := hc.trans hf.continueWith, upstream := hu.trans hf.upstream
                  received := by simpa using hf.received }))

theorem inv_destroy (st : Open (component T)) (p : Nat) (i : Half) (h : Inv st)
    (kind : st.kinds[p]? = some i) :
    Inv (Open.perform subscriptionCheck { st with log := .said p i .destroy :: st.log }
      ((component T).said st.views st.state p i .destroy)) := by
  have hsilent : Inv ({ st with log := .said p i .destroy :: st.log } : Open (component T)) := by
    refine ⟨h.outside, h.fits, by simpa using h.balance, ?_⟩
    rcases h.stage with hf | hf | hf | hf
    · exact absurd kind (by simp [hf.kinds])
    · exact Or.inr (Or.inl
        { hf with started := List.cons_ne_nil _ _, unheard := by simpa using hf.unheard
                  received := by simpa using hf.received, notDone := by simpa using hf.notDone
                  orderly := by simpa using hf.orderly })
    · exact Or.inr (Or.inr (Or.inl
        { hf with finished := by simpa using hf.finished, received := by simpa using hf.received
                  unheard := by simpa using hf.unheard }))
    · exact Or.inr (Or.inr (Or.inr
        { hf with finished := by simpa using hf.finished, received := by simpa using hf.received
                  within := by simpa using hf.within, exact := by simpa using hf.exact }))
  exact inv_release _ _ hsilent (List.cons_ne_nil _ _) rfl rfl rfl fun hs => hs.locked

theorem inv_reply (st : Open (component T)) (who : Callee) (k : Point)
    (rest : List (Callee × Point)) (h : Inv st) (top : st.stack = (who, k) :: rest)
    (hok : Rules st .reply) :
    Inv (Open.perform subscriptionCheck { st with stack := rest }
      ((component T).resume st.views st.state k)) := by
  -- no call returns while the second is set up
  have hstage : First st ∨ Second st := by
    rcases h.stage with hf | hf | hf | hf
    · exact absurd (hf.stack.symm.trans top) (by simp)
    · exact Or.inl hf
    · exact (hf.not_confirms hok).elim
    · exact Or.inr hf
  have hpop (turn : Turn Point) :
      First { st with stack := rest, turn := turn } ∨
        Second { st with stack := rest, turn := turn } :=
    hstage.imp (fun hf => { hf with }) (fun hf => { hf with })
  have hrel (s : ConcatStream) (hc : s.continueWith = st.state.continueWith)
      (hu : s.upstreamSubscription = st.state.upstreamSubscription)
      (hb : s.requestBalance = st.state.requestBalance) :
      Inv (Open.perform subscriptionCheck { st with stack := rest } (release s)) := by
    refine inv_release _ _ ⟨h.outside, h.fits, h.balance, (hpop _).elim (Or.inr ∘ Or.inl)
      (Or.inr ∘ Or.inr ∘ Or.inr)⟩ ?_ hc hu hb fun hs => ?_
    · exact hstage.elim First.started fun hf => hf.started
    · rcases hstage with hf | hf
      · exact absurd (hs.continueWith.symm.trans hf.continueWith) (by decide)
      · exact absurd (hs.unconfirmed.symm.trans hf.confirmedSecond) (by decide)
  cases k with
  | done => exact ⟨rfl, h.fits, h.balance, (hpop _).elim (Or.inr ∘ Or.inl)
      (Or.inr ∘ Or.inr ∘ Or.inr)⟩
  | subscribed => exact hrel _ rfl rfl rfl
  | selfDestruct => exact hrel _ rfl rfl rfl

/-- A stream that has not been asked for anything does not end. -/
theorem inv_view (st : Open (component T)) (p : Nat) (v : Bool) (h : Inv st)
    (hok : Rules st (.view p v)) :
    Inv ({ st with views := fun q => if q = p then v else st.views q } :
      Open (component T)) := by
  have hidle (hlog : heard 1 st.log = []) (htok : tokens 1 st.log = 0)
      (hview : st.views 1 = false) : (if 1 = p then v else st.views 1) = false := by
    by_cases hp : 1 = p
    · subst hp
      rcases hok.2 with hend | hlt
      · rw [arrived_eq_heard, hlog] at hend
        exact absurd hend Bool.false_ne_true
      · rw [htok] at hlt
        exact absurd hlt (Nat.not_lt_zero _)
    · rw [if_neg hp, hview]
  refine ⟨h.outside, h.fits, h.balance, ?_⟩
  rcases h.stage with hf | hf | hf | hf
  · exact Or.inl { hf with view := hidle (by rw [hf.log, heard_nil]) (by rw [hf.log, tokens_nil])
                                     hf.view }
  · exact Or.inr (Or.inl { hf with view := hidle hf.unheard hf.unasked hf.view })
  · exact Or.inr (Or.inr (Or.inl { hf with view := hidle hf.unheard hf.unasked hf.view }))
  · refine Or.inr (Or.inr (Or.inr { hf with exact := fun hv => hf.exact ?_ }))
    by_cases hp : 1 = p
    · simp only [hp, if_true, hok.1, Bool.true_eq_false] at hv
    · simpa only [hp, if_false] using hv

theorem inv_step (st st' : Open (component T)) (h : Inv st)
    (hstep : Open.Step subscriptionCheck Rules st st') : Inv st' := by
  cases hstep with
  | call c _ _ ok =>
      cases c with
      | subscribe => exact inv_subscribe st h (List.isEmpty_iff.mp ok.1)
      | request n => exact inv_request st n h ok
      | cancel => exact absurd rfl ok.2.2.1
  | said p i o _ kind ok =>
      cases o with
      | onSubscribe => exact inv_onSubscribe st p i h kind ok
      | onNext e => exact inv_onNext st p i e h kind ok
      | destroy => exact inv_destroy st p i h kind
  | reply who k rest _ top ok => exact inv_reply st who k rest h top ok
  | view p v _ ok => exact inv_view st p v h ok
  | run k turn _ => exact absurd (h.outside.symm.trans turn) (by simp)

theorem inv_reach (st : Open (component T)) (h : Open.Reach subscriptionCheck Rules st) :
    Inv st :=
  Open.Reach.induct Inv inv_init (fun st st' _ => inv_step st st') st h

/-- What came out is what came in, without the `Done` of the first stream. -/
theorem received_eq (st : Open (component T)) (h : Inv st) :
    received st.log = (heard 0 st.log).filter (!·.isDone) ++ heard 1 st.log := by
  rcases h.stage with hf | hf | hf | hf
  · rw [hf.log]
    rfl
  · rw [hf.received, hf.unheard, List.append_nil, List.filter_eq_self.mpr]
    intro e he
    rw [hf.notDone e he]
    rfl
  · exact hf.received
  · exact hf.received

/-- There is no error among the events of a first stream that is done. -/
theorem Switched.not_isError {st : Open (component T)} (h : Switched st) (e : StatusOr T)
    (he : e ∈ heard 0 st.log) : e.isError = false := by
  rcases h.finished with ⟨vs, d, hheard, hdone, hvalues⟩
  rw [hheard, List.mem_append, List.mem_singleton] at he
  rcases he with hv | rfl
  · have hval := hvalues e hv
    rw [StatusOr.isEnd] at hval
    rw [StatusOr.isError, hval, Bool.false_and]
  · rw [StatusOr.isError, hdone, Bool.not_true, Bool.and_false]

/-- After an error of the first stream nothing else is sent, and nobody is
    subscribed any more. -/
theorem last_of_isError (st : Open (component T)) (h : Inv st) (e : StatusOr T)
    (he : e ∈ heard 0 st.log) (herr : e.isError = true) :
    (received st.log).getLast? = some e ∧ st.kinds = [.first] := by
  rcases h.stage with hf | hf | hf | hf
  · rw [hf.log] at he
    exact absurd he List.not_mem_nil
  · refine ⟨?_, hf.kinds⟩
    rw [hf.received]
    rcases List.eq_nil_or_concat (heard 0 st.log) with hnil | ⟨init, last, heq⟩
    · rw [hnil] at he
      exact absurd he List.not_mem_nil
    · have hord := hf.orderly
      rw [heq, List.concat_eq_append, List.dropLast_concat] at hord
      rw [heq, List.concat_eq_append, List.mem_append, List.mem_singleton] at he
      rcases he with hv | rfl
      · exact absurd ((hord e hv).symm.trans (StatusOr.isEnd_of_isError e herr)) (by decide)
      · rw [heq, List.concat_eq_append, List.getLast?_concat]
  · exact absurd ((hf.not_isError e he).symm.trans herr) (by decide)
  · exact absurd ((hf.not_isError e he).symm.trans herr) (by decide)

/-- From the moment the second stream has confirmed its subscription, and as
    long as it has not ended, it is asked for what the first one left over. -/
theorem tokens_second (st : Open (component T)) (h : Inv st)
    (hconf : confirmed 1 st.log = true) (hview : st.views 1 = false) :
    tokens 1 st.log + values (heard 0 st.log) = demand st.log := by
  rcases h.stage with hf | hf | hf | hf
  · rw [hf.log, confirmed_nil] at hconf
    exact absurd hconf Bool.false_ne_true
  · exact absurd (hconf.symm.trans hf.unconfirmed) (by decide)
  · exact absurd (hconf.symm.trans hf.unconfirmed) (by decide)
  · exact hf.exact hview

/-- Three tokens for two streams: the first has ended its subscription when
    its `Done` comes, and the second is asked for the two tokens left. -/
def handoverMoves : List (Move Call Bool Half (fun _ => Signal Nat)) :=
  [ .call .subscribe, .said 0 .first .onSubscribe, .call (.request 3),
    .reply, .reply, .said 0 .first (.onNext (.value 1)), .reply,
    .view 0 true, .said 0 .first (.onNext .done),
    .said 1 .second .onSubscribe, .reply, .reply,
    .said 1 .second (.onNext (.value 2)) ]

end ConcatStream

end RxCppUniq
