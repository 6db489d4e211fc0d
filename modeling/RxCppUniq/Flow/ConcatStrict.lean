import RxCppUniq.Flow.Metered
import RxCppUniq.Reactive.Concat
import RxCppUniq.Theory.Frames

/-!
# Strict Flow Control in Concat

`ConcatStream` next to streams that answer when they like, the second of which
may also confirm its subscription later. Requests that come before it does
fail a check, so the invariant is one with frames, where the flow control is
what remains safe.

## Main definitions

* `ConcatStream.flow`: The invariant.

## Theorems

* `ConcatStream.limited`: As far as balances go the flow control is strict.
-/

namespace RxCppUniq

open Theory

namespace ConcatStream

variable {T : Type}

/-- Nobody has subscribed yet. -/
structure Unused (s : ConcatStream) (kinds : List Half) (log : Log T Half (fun _ => T)) : Prop where
  log : log = []
  kinds : kinds = []
  state : s = {}

/-- The events that come out are those of the first stream. -/
structure FromFirst (s : ConcatStream) (kinds : List Half) (log : Log T Half (fun _ => T)) :
    Prop where
  started : log ≠ []
  continueWith : s.continueWith = true
  kinds : kinds = [.first]
  upstream : ∀ p, s.upstreamSubscription = some p → p = 0
  received : received log = heard 0 log
  asked : tokens 0 log ≤ demand log
  unconfirmed : confirmed 1 log = false
  unheard : heard 1 log = []
  unasked : tokens 1 log = 0

/-- The first stream is done, and the events that come out are its values `vs`
    and those of the second. -/
structure FromSecond (s : ConcatStream) (kinds : List Half) (log : Log T Half (fun _ => T)) :
    Prop where
  continueWith : s.continueWith = false
  kinds : kinds = [.first, .second]
  past : ended (arrived 0 log) = true
  confirmed : RxCppUniq.confirmed 0 log = true
  upstream : ∀ p, s.upstreamSubscription = some p → p = 1 ∧ RxCppUniq.confirmed 1 log = true
  received : ∃ vs : List (StatusOr T), received log = vs ++ heard 1 log ∧
    (∀ v ∈ vs, v.isEnd = false) ∧
      (unlimited log = false → tokens 1 log + vs.length ≤ demand log)
  unconfirmed : RxCppUniq.confirmed 1 log = false → heard 1 log = [] ∧ tokens 1 log = 0

structure Counted (s : ConcatStream) (kinds : List Half) (log : Log T Half (fun _ => T)) :
    Prop where
  balance : Metered s.requestBalance (values (received log)) log
  strict : LimitedFlow log
  stage : Unused s kinds log ∨ FromFirst s kinds log ∨ FromSecond s kinds log

/-- The invariant, in which no point relies on anything. -/
def flow : Open.Spec (component T) where
  Core := Counted
  Frame _ _ _ _ := True
  Safe _ log := LimitedFlow log

section Keeps

variable {s : ConcatStream} {kinds : List Half} {log before : Log T Half (fun _ => T)}

/-- A piece of code keeps its part when it keeps the core or fails. -/
theorem keeps_of_counted (r : Result T) (hsafe : LimitedFlow log)
    (h : (∃ msg, r.2 = .fail msg) ∨ Counted r.1 (r.2.kinds kinds) (r.2.log kinds log)) :
    (flow (T := T)).Keeps s kinds before log r :=
  ⟨hsafe, h, fun _ _ => trivial, fun _ _ _ => trivial⟩

/-- A call that neither asks nor delivers nor brings anything. -/
structure Idle (n : Entry T Half (fun _ => T)) : Prop where
  demand : n.demand = 0
  tokens : ∀ p, n.tokens p = 0
  heard : ∀ p, n.heard p = none
  arrived : n.arrived 0 = none
  received : n.received = none
  confirms : n.confirms 1 = false

theorem idle_out (o : Signal T) (h : o.event? = none) : Idle (.out o : Entry T Half (fun _ => T)) :=
  ⟨rfl, fun _ => rfl, fun _ => rfl, rfl, h, rfl⟩

theorem idle_destroy (p : Nat) (i : Half) : Idle (.said p i .destroy : Entry T Half (fun _ => T)) :=
  ⟨rfl, fun _ => rfl, fun q => by by_cases h : p = q <;> simp [h],
    by by_cases h : p = 0 <;> simp [h], rfl, rfl⟩

/-- The events that came out, after a call. -/
theorem FromSecond.owes_of_cons (h : FromSecond s kinds log) (n : Entry T Half (fun _ => T)) :
    ∃ vs : List (StatusOr T), RxCppUniq.received log = vs ++ RxCppUniq.heard 1 log ∧
      (∀ v ∈ vs, v.isEnd = false) ∧
        (unlimited (n :: log) = false → tokens 1 log + vs.length ≤ demand log) := by
  rcases h.received with ⟨vs, hvs, hval, hasked⟩
  exact ⟨vs, hvs, hval, fun hno => hasked (unlimited_of_cons hno)⟩

/-- An idle call leaves everything as it is, and so does code that touches
    neither the upstream nor the balance. -/
theorem Counted.idle (h : Counted s kinds log) (hne : log ≠ []) (s' : ConcatStream)
    (n : Entry T Half (fun _ => T)) (hn : Idle n) (hc : s'.continueWith = s.continueWith)
    (hu : s'.upstreamSubscription = s.upstreamSubscription)
    (hb : s'.requestBalance = s.requestBalance) : Counted s' kinds (n :: log) := by
  have hrec : received (n :: log) = received log := by
    rw [received_cons, hn.received, Option.toList_none, List.append_nil]
  have hheard (p : Nat) : heard p (n :: log) = heard p log := by
    rw [heard_cons, hn.heard, Option.toList_none, List.append_nil]
  have htok (p : Nat) : tokens p (n :: log) = tokens p log := by
    rw [tokens_cons, hn.tokens, Nat.add_zero]
  have hdem : demand (n :: log) = demand log := by rw [demand_cons, hn.demand, Nat.add_zero]
  have hconf : confirmed 1 (n :: log) = confirmed 1 log := by
    rw [confirmed_cons, hn.confirms, Bool.false_or]
  have hbal : Metered s'.requestBalance (values (received (n :: log))) (n :: log) := by
    rw [hb, hrec]
    exact h.balance.quiet n hn.demand
  refine ⟨hbal, h.strict.silent n hn.received, ?_⟩
  rcases h.stage with hf | hf | hf
  · exact absurd hf.log hne
  · refine Or.inr (Or.inl ⟨List.cons_ne_nil _ _, hc.trans hf.continueWith, hf.kinds, ?_, ?_, ?_,
      ?_, ?_, ?_⟩)
    · rw [hu]; exact hf.upstream
    · rw [hrec, hheard]; exact hf.received
    · rw [htok, hdem]; exact hf.asked
    · rw [hconf]; exact hf.unconfirmed
    · rw [hheard]; exact hf.unheard
    · rw [htok]; exact hf.unasked
  · refine Or.inr (Or.inr ⟨hc.trans hf.continueWith, hf.kinds, ?_, ?_, ?_, ?_, ?_⟩)
    · rw [arrived_cons, hn.arrived, Option.toList_none, List.append_nil]; exact hf.past
    · rw [confirmed_cons, hf.confirmed, Bool.or_true]
    · rw [hu, hconf]; exact hf.upstream
    · rw [hrec, hheard, htok, hdem]
      exact hf.owes_of_cons n
    · rw [hconf, hheard, htok]; exact hf.unconfirmed

theorem Counted.part (h : Counted s kinds log) (p : Nat) (i : Half) (kind : kinds[p]? = some i) :
    FromFirst s kinds log ∧ p = 0 ∨ FromSecond s kinds log ∧ (p = 0 ∨ p = 1) := by
  have hlt := (List.getElem?_eq_some_iff.mp kind).1
  rcases h.stage with hf | hf | hf
  · rw [hf.kinds] at hlt
    exact absurd hlt (Nat.not_lt_zero _)
  · rw [hf.kinds, List.length_singleton] at hlt
    exact Or.inl ⟨hf, by omega⟩
  · rw [hf.kinds] at hlt
    exact Or.inr ⟨hf, by simp at hlt; omega⟩

/-- After the subscription the log is not empty any more. -/
theorem FromSecond.started (h : FromSecond s kinds log) : log ≠ [] := by
  intro hlog
  have hconf := h.confirmed
  rw [hlog] at hconf
  exact absurd hconf (by simp)

/-- The publisher is subscribed to, and subscribes to the first stream. -/
theorem keeps_subscribe (h : Counted s kinds log) (hlog : log = []) :
    (flow (T := T)).Keeps s kinds before (.call .subscribe :: log)
      (subscribeNext { s with created := true } .first .subscribed) := by
  have hstrict := h.strict.silent (.call .subscribe) rfl
  rcases h.stage with hf | hf | hf
  · rcases hf with ⟨rfl, rfl, rfl⟩
    exact keeps_of_counted _ hstrict (Or.inr ⟨(Metered.nil.quiet _ rfl).quiet _ rfl,
      hstrict.silent _ rfl, Or.inr (Or.inl ⟨List.cons_ne_nil _ _, rfl, rfl,
        fun p hp => absurd hp (by simp [subscribeNext]), rfl, Nat.le_refl _, rfl, rfl, rfl⟩)⟩)
  · exact absurd hlog hf.started
  · exact absurd hlog hf.started

/-- Code that only lets go of the object. -/
theorem keeps_release (h : Counted s kinds log) (hne : log ≠ []) (s' : ConcatStream)
    (hc : s'.continueWith = s.continueWith)
    (hu : s'.upstreamSubscription = s.upstreamSubscription)
    (hb : s'.requestBalance = s.requestBalance) :
    (flow (T := T)).Keeps s kinds before log (release s') := by
  refine keeps_of_counted _ h.strict (Or.inr ?_)
  unfold release
  by_cases hheld : (s'.selfLock || s'.wrappers != 0 || s'.created || s'.hasEnded) = true
  · rw [if_pos hheld]
    refine ⟨hb ▸ h.balance, h.strict, ?_⟩
    rcases h.stage with hf | hf | hf
    · exact absurd hf.log hne
    · exact Or.inr (Or.inl
        { hf with continueWith := hc.trans hf.continueWith, upstream := hu ▸ hf.upstream })
    · exact Or.inr (Or.inr
        { hf with continueWith := hc.trans hf.continueWith, upstream := hu ▸ hf.upstream })
  · rw [if_neg hheld]
    exact h.idle hne _ _ (idle_out .destroy rfl) hc hu hb

/-- The subscriber requests. -/
theorem keeps_request (h : Counted s kinds log) (hne : log ≠ []) (views : Nat → Bool) (n : Nat) :
    (flow (T := T)).Keeps s kinds before (.call (.request n) :: log) (request views s n) := by
  have hbal := h.balance.request (Nat.le_refl _) n
  have hstrict := h.strict.silent (.call (.request n)) rfl
  refine keeps_of_counted _ hstrict ?_
  unfold request
  cases hup : s.upstreamSubscription with
  | none => exact Or.inl ⟨_, rfl⟩
  | some p =>
      refine Or.inr ?_
      -- a stream that has ended is asked for nothing, but the balance grows
      cases hview : views p with
      | true =>
          simp only [hview, if_true]
          refine ⟨hbal, hstrict, ?_⟩
          rcases h.stage with hf | hf | hf
          · exact absurd hf.log hne
          · have hasked := hf.asked
            refine Or.inr (Or.inl { hf with
              started := List.cons_ne_nil _ _
              asked := ?_
              upstream := hup ▸ hf.upstream })
            simp only [Act.log, tokens_cons, Entry.tokens, demand_cons, Entry.demand]
            omega
          · rcases hf.received with ⟨vs, hvs, hval, hasked⟩
            refine Or.inr (Or.inr { hf with
              received := ⟨vs, hvs, hval, fun hno => ?_⟩
              upstream := hup ▸ hf.upstream })
            have hle := hasked (unlimited_of_cons hno)
            simp only [Act.log, tokens_cons, Entry.tokens, demand_cons, Entry.demand]
            omega
      | false =>
          simp only [hview, Bool.false_eq_true, if_false]
          refine ⟨hbal.quiet _ rfl, hstrict.silent _ rfl, ?_⟩
          rcases h.stage with hf | hf | hf
          · exact absurd hf.log hne
          · have hp := hf.upstream p hup
            subst hp
            have hasked := hf.asked
            refine Or.inr (Or.inl { hf with
              started := List.cons_ne_nil _ _
              asked := ?_
              upstream := hup ▸ hf.upstream })
            simp only [Act.log, tokens_cons, Entry.tokens, if_true, demand_cons, Entry.demand,
              Call.count]
            omega
          · rcases hf.upstream p hup with ⟨rfl, hconf⟩
            rcases hf.received with ⟨vs, hvs, hval, hasked⟩
            refine Or.inr (Or.inr { hf with
              received := ⟨vs, hvs, hval, fun hno => ?_⟩
              upstream := hup ▸ hf.upstream
              unconfirmed := fun hno => absurd (hconf.symm.trans hno) (by decide) })
            have hle := hasked (unlimited_of_cons (unlimited_of_cons hno))
            simp only [Act.log, tokens_cons, Entry.tokens, if_true, demand_cons, Entry.demand,
              Call.count]
            omega

/-- A stream hands out its subscription. -/
theorem keeps_onSubscribe (h : Counted s kinds log) (p : Nat) (i : Half)
    (kind : kinds[p]? = some i) (hok : confirmed p log = false) :
    (flow (T := T)).Keeps s kinds before (.said p i .onSubscribe :: log) (onSubscribe s p) := by
  have hstrict := h.strict.silent (.said p i .onSubscribe) rfl
  refine keeps_of_counted _ hstrict ?_
  unfold onSubscribe
  by_cases hagain : (s.upstreamSubscription.isSome && s.isRunningFirst) = true
  · rw [if_pos hagain]
    exact Or.inl ⟨_, rfl⟩
  · rw [if_neg hagain]
    refine Or.inr ?_
    rcases h.part p i kind with ⟨hf, rfl⟩ | ⟨hf, rfl | rfl⟩
    · simp only [isRunningFirst, hf.continueWith, if_true]
      refine ⟨(h.balance.quiet _ rfl).quiet _ rfl, hstrict.silent _ rfl, Or.inr (Or.inl
        { hf with
          started := List.cons_ne_nil _ _
          continueWith := rfl
          upstream := fun q hq => (Option.some.inj hq).symm
          received := by simpa using hf.received
          asked := by simpa using hf.asked
          unconfirmed := by simpa using hf.unconfirmed
          unheard := by simpa using hf.unheard
          unasked := by simpa using hf.unasked })⟩
    · exact absurd (hok.symm.trans hf.confirmed) (by decide)
    · rcases hf.unconfirmed hok with ⟨hnone, hzero⟩
      rcases hf.received with ⟨vs, hvs, hval, hasked⟩
      have hvalues : values (received log) = vs.length := by
        rw [hvs, hnone, List.append_nil, values_eq_length vs hval]
      simp only [isRunningFirst, hf.continueWith, Bool.false_eq_true, if_false]
      -- What the first stream has left is asked of the second at once.
      by_cases hleft : s.requestBalance.hasRequests = true
      · rw [if_pos hleft]
        refine ⟨(h.balance.quiet _ rfl).quiet _ rfl, hstrict.silent _ rfl, Or.inr (Or.inr
          { hf with
            continueWith := rfl
            past := by simpa using hf.past
            confirmed := by simp [hf.confirmed]
            upstream := fun q hq => ⟨(Option.some.inj hq).symm, by simp⟩
            received := ⟨vs, by simpa using hvs, hval, fun hno => ?_⟩
            unconfirmed := fun hno => absurd hno (by simp) })⟩
        have hbal := (h.balance (unlimited_of_cons (unlimited_of_cons hno))).2
        simp only [Act.log, tokens_cons, Entry.tokens, if_true, Call.count, demand_cons,
          Entry.demand, Nat.add_zero, hzero]
        omega
      · rw [if_neg hleft]
        exact ⟨h.balance.quiet _ rfl, hstrict, Or.inr (Or.inr
          { hf with
            continueWith := rfl
            past := by simpa using hf.past
            confirmed := by simp [hf.confirmed]
            upstream := fun q hq => ⟨(Option.some.inj hq).symm, by simp⟩
            received := ⟨vs, by simpa using hvs, hval, fun hno => by
              simpa using hasked (unlimited_of_cons hno)⟩
            unconfirmed := fun hno => absurd hno (by simp) })⟩

/-- An event of the first stream. -/
theorem keeps_onNext_first (h : Counted s kinds log) (hf : FromFirst s kinds log)
    (i : Half) (e : StatusOr T) (hlt : (arrived 0 log).length < tokens 0 log)
    (hopen : ∀ c ∈ arrived 0 log, c = .ok) (hconf : confirmed 0 log = true) :
    (flow (T := T)).Keeps s kinds before (.said 0 i (.onNext e) :: log) (onNext s e) := by
  have hstrict := h.strict.silent (.said 0 i (.onNext e)) rfl
  have hasked := hf.asked
  rw [arrived_eq_heard] at hlt hopen
  rw [List.length_map] at hlt
  -- what came before this event was no end
  have hvals : ∀ v ∈ heard 0 log, v.isEnd = false := fun v hv => by
    rw [StatusOr.isEnd, hopen _ (List.mem_map_of_mem hv)]
    rfl
  have hdeliver (e' : StatusOr T) :
      LimitedFlow (.out (.onNext e') :: .said 0 i (.onNext e) :: log) := by
    refine limitedFlow_onNext _ _ (fun _ => ?_) ?_
    · simp only [received_cons, Entry.received, Option.toList_none, List.append_nil, hf.received,
        demand_cons, Entry.demand]
      omega
    · simpa [hf.received] using hvals
  refine keeps_of_counted _ hstrict ?_
  unfold onNext
  cases hend : e.isEnd with
  | false =>
      simp only [Bool.not_false, if_true]
      cases hrem : s.requestBalance.remove 1 with
      | none => exact Or.inl ⟨_, rfl⟩
      | some b =>
          refine Or.inr ⟨?_, hdeliver e, Or.inr (Or.inl
            { hf with
              started := List.cons_ne_nil _ _
              received := by simp [hf.received]
              asked := by simpa using hf.asked
              unconfirmed := by simpa using hf.unconfirmed
              unheard := by simpa using hf.unheard
              unasked := by simpa using hf.unasked })⟩
          simpa [hend] using ((h.balance.remove 1 hrem).quiet (.said 0 i (.onNext e)) rfl).quiet
            (.out (.onNext e)) rfl
  | true =>
      simp only [Bool.not_true, Bool.false_eq_true, if_false]
      -- an error ends the stream, a Done starts the second one
      by_cases hlast : (e.isError || !s.isRunningFirst) = true
      · rw [if_pos hlast]
        have hbal := (h.balance.quiet (.said 0 i (.onNext e)) rfl).quiet (.out (.onNext e)) rfl
        refine Or.inr ⟨by simpa [hend] using hbal, hdeliver e, Or.inr (Or.inl
          { hf with
            started := List.cons_ne_nil _ _
            received := by simp [hf.received]
            asked := by simpa using hf.asked
            unconfirmed := by simpa using hf.unconfirmed
            unheard := by simpa using hf.unheard
            unasked := by simpa using hf.unasked })⟩
      · rw [if_neg hlast]
        refine Or.inr ⟨(h.balance.quiet _ rfl).quiet _ rfl, hstrict.silent _ rfl, Or.inr (Or.inr
          { continueWith := rfl
            kinds := by rw [hf.kinds]; rfl
            past := ?_
            confirmed := by simpa [subscribeNext] using hconf
            upstream := fun q hq => absurd hq (by simp [subscribeNext])
            received := ⟨heard 0 log, ?_, hvals, fun _ => ?_⟩
            unconfirmed := fun _ => ⟨by simpa [subscribeNext] using hf.unheard, ?_⟩ })⟩
        · simp only [subscribeNext, Act.log, arrived_cons, Entry.arrived, if_true, Signal.event?,
            Option.map_some, Option.toList_some, Option.toList_none, List.append_nil, ended_append,
            ended_singleton]
          rw [StatusOr.isEnd] at hend
          rw [hend, Bool.or_true]
        · simp [subscribeNext, hf.received, hf.unheard]
        · have hzero := hf.unasked
          simp [subscribeNext, hzero, hf.kinds]
          omega
        · simp [subscribeNext, hf.unasked, hf.kinds]

/-- An event of the second stream. -/
theorem keeps_onNext_second (h : Counted s kinds log) (hf : FromSecond s kinds log)
    (i : Half) (e : StatusOr T) (hlt : (arrived 1 log).length < tokens 1 log)
    (hopen : ∀ c ∈ arrived 1 log, c = .ok) (hconf : confirmed 1 log = true) :
    (flow (T := T)).Keeps s kinds before (.said 1 i (.onNext e) :: log) (onNext s e) := by
  have hstrict := h.strict.silent (.said 1 i (.onNext e)) rfl
  rcases hf.received with ⟨vs, hvs, hval, hasked⟩
  rw [arrived_eq_heard] at hlt hopen
  rw [List.length_map] at hlt
  have hvals : ∀ v ∈ received log, v.isEnd = false := by
    rw [hvs]
    intro v hv
    rcases List.mem_append.mp hv with hv | hv
    · exact hval v hv
    · rw [StatusOr.isEnd, hopen _ (List.mem_map_of_mem hv)]
      rfl
  -- it was asked for no more than the first has left
  have hout : LimitedFlow (.out (.onNext e) :: .said 1 i (.onNext e) :: log) := by
    refine limitedFlow_onNext _ _ (fun hno => ?_) (by simpa using hvals)
    have hle := hasked (unlimited_of_cons hno)
    simp only [received_cons, Entry.received, Option.toList_none, List.append_nil, hvs,
      demand_cons, Entry.demand, List.length_append]
    omega
  have hstage (s' : ConcatStream) (hc : s'.continueWith = s.continueWith)
      (hu : s'.upstreamSubscription = s.upstreamSubscription) :
      FromSecond s' kinds (.out (.onNext e) :: .said 1 i (.onNext e) :: log) :=
    { hf with
      continueWith := hc.trans hf.continueWith
      past := by simpa using hf.past
      confirmed := by simp [hf.confirmed]
      upstream := fun q hq => ⟨(hf.upstream q (hu ▸ hq)).1, by simpa using hconf⟩
      received := ⟨vs, by simp [hvs], hval, fun hno => by
        simpa using hasked (unlimited_of_cons (unlimited_of_cons hno))⟩
      unconfirmed := fun hno => absurd hno (by simp [hconf]) }
  refine keeps_of_counted _ hstrict ?_
  unfold onNext
  cases hend : e.isEnd with
  | false =>
      simp only [Bool.not_false, if_true]
      cases hrem : s.requestBalance.remove 1 with
      | none => exact Or.inl ⟨_, rfl⟩
      | some b =>
          refine Or.inr ⟨?_, hout, Or.inr (Or.inr (hstage _ rfl rfl))⟩
          simpa [hend] using ((h.balance.remove 1 hrem).quiet (.said 1 i (.onNext e)) rfl).quiet
            (.out (.onNext e)) rfl
  | true =>
      simp only [Bool.not_true, Bool.false_eq_true, if_false]
      rw [if_pos (by simp [isRunningFirst, hf.continueWith])]
      have hbal := (h.balance.quiet (.said 1 i (.onNext e)) rfl).quiet (.out (.onNext e)) rfl
      exact Or.inr ⟨by simpa [hend] using hbal, hout, Or.inr (Or.inr (hstage _ rfl rfl))⟩

theorem keeps_said (h : Counted s kinds log) (hne : log ≠ []) (p : Nat) (i : Half) (o : Signal T)
    (kind : kinds[p]? = some i) (hok : Protocol.stream p log o) (views : Nat → Bool) :
    (flow (T := T)).Keeps s kinds before (.said p i o :: log)
      ((component T).said views s p i o) := by
  cases o with
  | onSubscribe => exact keeps_onSubscribe h p i kind hok.1
  | onNext e =>
      rcases hok with ⟨hconf, -, hstrict⟩
      rw [strict_append] at hstrict
      rcases h.part p i kind with ⟨hf, rfl⟩ | ⟨hf, rfl | rfl⟩
      · exact keeps_onNext_first h hf i e hstrict.1 hstrict.2 hconf
      · have hopen := (ended_eq_false _).mpr hstrict.2
        exact absurd (hopen.symm.trans hf.past) (by decide)
      · exact keeps_onNext_second h hf i e hstrict.1 hstrict.2 hconf
  | destroy =>
      have hnote := h.idle hne s _ (idle_destroy p i) rfl rfl rfl
      exact keeps_release hnote (by simp) _ rfl rfl rfl

end Keeps

/-- As far as balances go the flow control is strict. -/
theorem limited (st : Open (component T)) (h : Open.Reach subscriptionCheck RequestRules st) :
    LimitedFlow st.log := by
  have hholds : (flow (T := T)).Holds st := by
    refine Open.Spec.holds_reach _ _ _ ?_ ?_ ?_ ?_ st h
    · exact ⟨Metered.nil, flowWhen_nil _, Or.inl ⟨rfl, rfl, rfl⟩⟩
    · intro st c _ hok _ hc
      cases c with
      | subscribe => exact keeps_subscribe hc (List.isEmpty_iff.mp hok.1)
      | request n =>
          -- a part exists, so the stream was subscribed to
          have hne : st.log ≠ [] := by
            intro hlog
            have hsub := hok.1.1
            rw [hlog] at hsub
            exact absurd hsub (by simp)
          exact keeps_request hc hne st.views n
      | cancel => exact absurd rfl hok.2
    · intro st p i o _ hok kind hc
      have hne : st.log ≠ [] := by
        rcases hc.part p i kind with ⟨hf, -⟩ | ⟨hf, -⟩
        · exact hf.started
        · exact hf.started
      exact keeps_said hc hne p i o kind hok st.views
    · intro st k hresumes hreach hc _
      have hne := hresumes.log_ne_nil hreach
      cases k with
      | done => exact keeps_of_counted _ hc.strict (Or.inr hc)
      | subscribed => exact keeps_release hc hne _ rfl rfl rfl
      | selfDestruct => exact keeps_release hc hne _ rfl rfl rfl
  rcases hholds with ⟨-, hc, -⟩ | ⟨-, hsafe⟩
  · exact hc.strict
  · exact hsafe

end ConcatStream

end RxCppUniq
