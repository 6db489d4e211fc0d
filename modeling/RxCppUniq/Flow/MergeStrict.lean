import RxCppUniq.Flow.Metered
import RxCppUniq.Reactive.Merge
import RxCppUniq.Theory.Modes

/-!
# Strict Flow Control in Merge

`MergeStream` delivers in a loop which its flag keeps from being entered
twice, and which is left for good when an end has been delivered: the flag
stays set. The modes tell whether the loop is under way and where it waits.
The counter of what is available plays no part here.

## Main definitions

* `MergeStream.flow`: The invariant.

## Theorems

* `MergeStream.limited`: As far as balances go the flow control is strict.
-/

namespace RxCppUniq

open Theory

namespace MergeStream

variable {ι : Type} {T : ι → Type} {V : Type} {publisher : MergePublisher ι}

/-- What is left to do after an end has been delivered. -/
inductive After where
  | none
  | failed
  | finished
  | cancelling (i : Nat)
  | cancelled (i : Nat)

/-- Where the loop of `MaybeDeliver` is. -/
inductive Loop (V : Type) where
  | quiet
  | looping
  | consuming (event : StatusOr V)
  | delivered
  | past (a : After)

namespace Loop

def turn : Loop V → Turn (Point V)
  | .quiet => .outside
  | .looping => .run .deliver
  | .consuming _ => .outside
  | .delivered => .outside
  | .past (.cancelling i) => .run (.cancelling i)
  | .past .none => .outside
  | .past .failed => .outside
  | .past .finished => .outside
  | .past (.cancelled _) => .outside

def frames : Loop V → List (Point V)
  | .quiet => []
  | .looping => []
  | .consuming event => [.consumed event]
  | .delivered => [.delivered]
  | .past (.cancelling _) => []
  | .past .none => []
  | .past .failed => [.failed]
  | .past .finished => [.finished]
  | .past (.cancelled i) => [.cancelled i]

/-- The loop has not delivered an end. -/
def runs : Loop V → Bool
  | .past _ => false
  | _ => true

/-- The flag. -/
def delivering : Loop V → Bool
  | .quiet => false
  | _ => true

end Loop

/-- The points at which one of the loops waits. -/
def Point.waits : Point V → Bool
  | .done => false
  | .subscribing => false
  | .confirmed => false
  | _ => true

/-- What holds wherever the loop is. -/
structure Counts (l : Loop (Sigma T)) (s : MergeStream (Sigma T)) (log : Log (Sigma T) ι T) :
    Prop where
  balance : Metered s.requestBalance (values (received log)) log
  strict : LimitedFlow log
  flag : s.delivering = l.delivering
  running : l.runs = true → ∀ e ∈ received log, e.isEnd = false
  consumed : ∀ e, l = .consuming e → 0 < s.requestBalance.balance ∧ e.isEnd = false

/-- The invariant. -/
def flow (publisher : MergePublisher ι) : Open.Modes (component T publisher) where
  Mode := Loop (Sigma T)
  tracked := Point.waits
  turn := Loop.turn
  frames := Loop.frames
  Facts l s _ log := Counts l s log
  Safe _ log := LimitedFlow log

section Keeps

variable {l : Loop (Sigma T)} {s t : MergeStream (Sigma T)} {kinds : List ι}
  {log : Log (Sigma T) ι T}

/-- A call that delivers nothing and brings no demand, and code that touches
    neither the balance nor the flag. -/
theorem Counts.note (h : Counts l s log) (n : Entry (Sigma T) ι T) (hr : n.received = none)
    (hd : n.demand = 0) (hreq : t.requestBalance = s.requestBalance)
    (hdel : t.delivering = s.delivering) : Counts l t (n :: log) := by
  have hrec : received (n :: log) = received log := by
    rw [received_cons, hr, Option.toList_none, List.append_nil]
  refine ⟨?_, h.strict.silent n hr, hdel.trans h.flag, ?_, ?_⟩
  · rw [hreq, hrec]
    exact h.balance.quiet n hd
  · rw [hrec]
    exact h.running
  · rw [hreq]
    exact h.consumed

/-- An event is delivered. -/
theorem Counts.deliver (h : Counts l s log) (e : StatusOr (Sigma T)) (l' : Loop (Sigma T))
    (hrun : l.runs = true) (hpos : 0 < s.requestBalance.balance)
    (hdel : t.delivering = l'.delivering)
    (hbal : s.requestBalance.remove (if e.isEnd then 0 else 1) = some t.requestBalance)
    (hend : l'.runs = true → e.isEnd = false) (hc : ∀ e', l' ≠ .consuming e') :
    Counts l' t (.out (.onNext e) :: log) := by
  have hvals := h.running hrun
  have hlen := values_eq_length _ hvals
  refine ⟨?_, limitedFlow_onNext log e (fun hno => hlen ▸ h.balance.lt hpos hno) hvals, hdel, ?_,
    ?_⟩
  · rw [received_cons, Entry.received, Signal.event?, Option.toList_some, values_append,
      values_singleton]
    exact (h.balance.remove _ hbal).quiet _ rfl
  · intro hl x hx
    simp only [received_cons, Entry.received, Signal.event?, Option.toList_some, List.mem_append,
      List.mem_singleton] at hx
    rcases hx with hx | rfl
    · exact hvals x hx
    · exact hend hl
  · intro e' he'
    exact absurd he' (hc e')

/-- `MaybeDeliver` starts its loop only when it is not under way. -/
theorem owes_maybeDeliver (h : Counts l s log) (hturn : l.turn = .outside) :
    (flow publisher).Owes l.frames kinds log (s.maybeDeliver) := by
  refine ⟨h.strict, Or.inr ?_⟩
  have hflag := h.flag
  unfold maybeDeliver
  by_cases hdel : s.delivering = true
  · rw [if_pos hdel]
    exact ⟨l, hturn, rfl, h⟩
  · rw [if_neg hdel]
    rw [Bool.not_eq_true] at hdel
    cases l with
    | quiet =>
        refine ⟨.looping, rfl, rfl, ?_⟩
        exact ⟨h.balance, h.strict, rfl, h.running, fun e he => absurd he (by simp)⟩
    | looping => exact absurd (hdel.symm.trans hflag) (by simp [Loop.delivering])
    | consuming e => exact absurd (hdel.symm.trans hflag) (by simp [Loop.delivering])
    | delivered => exact absurd (hdel.symm.trans hflag) (by simp [Loop.delivering])
    | past a => exact absurd (hdel.symm.trans hflag) (by simp [Loop.delivering])

theorem owes_release (h : Counts l s log) (hturn : l.turn = .outside) :
    (flow publisher).Owes l.frames kinds log s.release := by
  refine ⟨h.strict, Or.inr ⟨l, ?_⟩⟩
  unfold release
  by_cases hheld : (s.held || s.hasEnded) = true
  · rw [if_pos hheld]
    exact ⟨hturn, rfl, h⟩
  · rw [if_neg hheld]
    exact ⟨hturn, rfl, h.note (.out .destroy) rfl rfl rfl rfl⟩

/-- An end has been consumed. -/
theorem owes_upstreamEnded (h : Counts .looping s log) (hpos : 0 < s.requestBalance.balance)
    (i : Nat) (u : MergeUpstreamSubscriber (Sigma T)) (e : StatusOr (Sigma T))
    (hend : e.isEnd = true) :
    (flow publisher).Owes [] kinds log (s.upstreamEnded i u e) := by
  refine ⟨h.strict, Or.inr ?_⟩
  have hdel : s.delivering = true := h.flag
  unfold upstreamEnded
  by_cases herr : e.isError = true
  · simp only [herr, if_true]
    refine ⟨.past .failed, rfl, rfl, h.deliver e _ rfl hpos hdel ?_ (by simp [Loop.runs]) (by simp)⟩
    rw [if_pos hend]
    exact RequestBalance.remove_zero _
  · simp only [herr, Bool.false_eq_true, if_false]
    by_cases hall : (s.setUpstream i { u with attached := false }).upstreamSubscribers.all
        (!·.attached) = true
    · rw [if_pos hall]
      exact ⟨.past .finished, rfl, rfl, h.deliver .done _ rfl hpos hdel
        (RequestBalance.remove_zero _) (by simp [Loop.runs]) (by simp)⟩
    · rw [if_neg hall]
      exact ⟨.looping, rfl, rfl, { h with }⟩

/-- One round of the loop. -/
theorem owes_deliver (h : Counts .looping s log) :
    (flow publisher).Owes [] kinds log s.deliver := by
  unfold deliver
  by_cases hend : s.hasEnded = true
  · rw [if_pos hend]
    exact ⟨h.strict, Or.inl ⟨_, rfl⟩⟩
  · rw [if_neg hend]
    by_cases hcond : s.loopCondition = true
    · rw [if_pos hcond]
      simp only [loopCondition, Bool.and_eq_true, decide_eq_true_eq] at hcond
      dsimp only
      cases s.upstreamSubscribers[s.currentIndex]? with
      | none => exact ⟨h.strict, Or.inl ⟨_, rfl⟩⟩
      | some u =>
          dsimp only
          -- an upstream that has no event is passed over
          by_cases hskip : (!u.attached || !u.hasNext) = true
          · rw [if_pos hskip]
            exact ⟨h.strict, Or.inr ⟨.looping, rfl, rfl, { h with }⟩⟩
          · rw [if_neg hskip]
            unfold consumeNext
            cases hnext : u.next with
            | none => exact ⟨h.strict, Or.inl ⟨_, rfl⟩⟩
            | some e =>
                simp only
                -- an end is delivered if it is the last, a value always
                by_cases hisEnd : e.isEnd = true
                · rw [if_pos hisEnd]
                  exact owes_upstreamEnded (s := ({ s with
                    currentIndex :=
                      (s.currentIndex + 1) % s.upstreamSubscribers.length }.setUpstream
                      s.currentIndex { u with next := none }).addAvailable (-1))
                    ⟨h.balance, h.strict, h.flag, h.running, h.consumed⟩ hcond.1 _ _ e hisEnd
                · rw [if_neg hisEnd]
                  rw [Bool.not_eq_true] at hisEnd
                  refine ⟨h.strict, ?_⟩
                  cases u.upstreamSubscription with
                  | none => exact Or.inl ⟨_, rfl⟩
                  | some p =>
                      refine Or.inr ⟨.consuming e, rfl, rfl, ?_⟩
                      have hnote := h.note (t := s) (.ask p (.request 1)) rfl rfl rfl rfl
                      refine ⟨hnote.balance, hnote.strict, hnote.flag, hnote.running,
                        fun e' he' => ?_⟩
                      rw [← Loop.consuming.inj he']
                      exact ⟨hcond.1, hisEnd⟩
    · rw [if_neg hcond]
      exact ⟨h.strict, Or.inr ⟨.quiet, rfl, rfl, h.balance, h.strict, rfl, h.running,
        fun e he => absurd he (by simp)⟩⟩

/-- The value that has been consumed is delivered. -/
theorem owes_deliverEvent (e : StatusOr (Sigma T)) (h : Counts (.consuming e) s log) :
    (flow publisher).Owes [] kinds log (s.deliverEvent e) := by
  refine ⟨h.strict, ?_⟩
  rcases h.consumed e rfl with ⟨hpos, hval⟩
  unfold deliverEvent
  by_cases hend : s.hasEnded = true
  · rw [if_pos hend]
    exact Or.inl ⟨_, rfl⟩
  · rw [if_neg hend]
    cases hrem : s.requestBalance.remove 1 with
    | none => exact Or.inl ⟨_, rfl⟩
    | some b =>
        refine Or.inr ⟨.delivered, rfl, rfl, h.deliver e _ rfl hpos h.flag ?_ (fun _ => hval)
          (by simp)⟩
        rw [hval]
        exact hrem

/-- `Cancel`, when an error has been delivered. -/
theorem owes_cancelLoop (i : Nat) (h : Counts (.past (.cancelling i)) s log) :
    (flow publisher).Owes [] kinds log (s.cancelLoop i) := by
  have hover (a : After) : Counts (.past a) s log :=
    ⟨h.balance, h.strict, h.flag, h.running, fun e he => absurd he (by simp)⟩
  unfold cancelLoop
  by_cases hend : s.hasEnded = true
  · rw [if_pos hend]
    exact ⟨h.strict, Or.inl ⟨_, rfl⟩⟩
  · rw [if_neg hend]
    cases s.upstreamSubscribers[i]? with
    | none =>
        exact owes_release (l := .past .none) (s := { s with selfLock := false })
          { hover .none with } rfl
    | some u =>
        simp only
        by_cases hatt : u.attached = true
        · rw [if_pos hatt]
          refine ⟨h.strict, ?_⟩
          cases u.upstreamSubscription with
          | none => exact Or.inl ⟨_, rfl⟩
          | some p =>
              exact Or.inr ⟨.past (.cancelled i), rfl, rfl,
                (hover _).note (.ask p .cancel) rfl rfl rfl rfl⟩
        · rw [if_neg hatt]
          exact ⟨h.strict, Or.inr ⟨.past (.cancelling (i + 1)), rfl, rfl, hover _⟩⟩

/-- An upstream calls. -/
theorem owes_said (h : Counts l s log) (hturn : l.turn = .outside) (p : Nat) (i : ι)
    (o : Signal (T i)) (views : Nat → Bool) :
    (flow publisher).Owes l.frames kinds (.said p i o :: log)
      ((component T publisher).said views s p i o) := by
  have hnote := h.note (t := s) (.said p i o) rfl rfl rfl rfl
  cases o with
  | onSubscribe =>
      refine ⟨hnote.strict, ?_⟩
      simp only [onSubscribe]
      cases s.upstreamSubscribers[p]? with
      | none => exact Or.inl ⟨_, rfl⟩
      | some u =>
          dsimp only
          by_cases hagain : u.upstreamSubscription.isSome = true
          · rw [if_pos hagain]
            exact Or.inl ⟨_, rfl⟩
          · rw [if_neg hagain]
            exact Or.inr ⟨l, hturn, rfl, hnote.note (.ask p (.request 1)) rfl rfl rfl rfl⟩
  | onNext e =>
      simp only [onNext]
      cases s.upstreamSubscribers[p]? with
      | none => exact ⟨hnote.strict, Or.inl ⟨_, rfl⟩⟩
      | some u =>
          dsimp only
          -- an upstream that sends more than it was asked for fails the check
          by_cases hfull : u.next.isSome = true
          · rw [if_pos hfull]
            exact ⟨hnote.strict, Or.inl ⟨_, rfl⟩⟩
          · rw [if_neg hfull]
            exact owes_maybeDeliver (s := (s.setUpstream p { u with
              next := some (inVariant i e) }).addAvailable 1) { hnote with } hturn
  | destroy =>
      simp only [destroyWrapper]
      cases s.upstreamSubscribers[p]? with
      | none => exact ⟨hnote.strict, Or.inl ⟨_, rfl⟩⟩
      | some u =>
          exact owes_release (s := s.setUpstream p { u with wrapped := false }) { hnote with } hturn

/-- The next upstream is subscribed, or the subscription is confirmed. -/
theorem owes_subscribeNext (h : Counts l s log) (hturn : l.turn = .outside) :
    (flow publisher).Owes l.frames kinds log (subscribeNext publisher s) := by
  refine ⟨h.strict, Or.inr ⟨l, ?_⟩⟩
  unfold subscribeNext
  cases publisher.upstream[s.upstreamSubscribers.length]? with
  | none => exact ⟨hturn, rfl, h.note (.out .onSubscribe) rfl rfl rfl rfl⟩
  | some i => exact ⟨hturn, rfl, h.note (.ask kinds.length .subscribe) rfl rfl rfl rfl⟩

/-- The subscriber requests. -/
theorem owes_request (h : Counts l s log) (hturn : l.turn = .outside) (n : Nat) :
    (flow publisher).Owes l.frames kinds (.call (.request n) :: log) (s.request n) := by
  unfold request
  refine owes_maybeDeliver (s := { s with requestBalance := s.requestBalance.add n })
    ⟨?_, h.strict.silent _ rfl, h.flag, by simpa using h.running, fun e he => ?_⟩ hturn
  · simpa using h.balance.request (Nat.le_refl _) n
  · rcases h.consumed e he with ⟨hpos, hval⟩
    have hle := s.requestBalance.le_kMax
    simp only [RequestBalance.balance_add]
    exact ⟨by omega, hval⟩

/-- A call at which the loop waits has returned. -/
theorem owes_back (k : Point (Sigma T)) (frames : List (Point (Sigma T)))
    (h : Counts l s log) (hframes : l.frames = k :: frames) (views : Nat → Bool) :
    (flow publisher).Owes frames kinds log ((component T publisher).resume views s k) := by
  -- after the loop nothing is delivered any more
  have hover (a : After) (hl : l.delivering = true) (hr : l.runs = false) :
      Counts (.past a) s log :=
    ⟨h.balance, h.strict, h.flag.trans hl, fun hno => absurd hno (by simp [Loop.runs]),
      fun e he => absurd he (by simp)⟩
  cases l with
  | quiet => exact absurd hframes (by simp [Loop.frames])
  | looping => exact absurd hframes (by simp [Loop.frames])
  | consuming e =>
      simp only [Loop.frames, List.cons.injEq] at hframes
      rcases hframes with ⟨rfl, rfl⟩
      exact owes_deliverEvent e h
  | delivered =>
      simp only [Loop.frames, List.cons.injEq] at hframes
      rcases hframes with ⟨rfl, rfl⟩
      exact ⟨h.strict, Or.inr ⟨.looping, rfl, rfl, h.balance, h.strict, h.flag, h.running,
        fun e he => absurd he (by simp)⟩⟩
  | past a =>
      cases a with
      | none => exact absurd hframes (by simp [Loop.frames])
      | cancelling i => exact absurd hframes (by simp [Loop.frames])
      | failed =>
          simp only [Loop.frames, List.cons.injEq] at hframes
          rcases hframes with ⟨rfl, rfl⟩
          refine ⟨h.strict, ?_⟩
          simp only [component]
          by_cases hend : s.hasEnded = true
          · rw [if_pos hend]
            exact Or.inl ⟨_, rfl⟩
          · rw [if_neg hend]
            exact Or.inr ⟨.past (.cancelling 0), rfl, rfl, hover _ rfl rfl⟩
      | finished =>
          simp only [Loop.frames, List.cons.injEq] at hframes
          rcases hframes with ⟨rfl, rfl⟩
          simp only [component]
          by_cases hend : s.hasEnded = true
          · rw [if_pos hend]
            exact ⟨h.strict, Or.inl ⟨_, rfl⟩⟩
          · rw [if_neg hend]
            exact owes_release (l := .past .none) (s := { s with selfLock := false })
              { hover .none rfl rfl with } rfl
      | cancelled i =>
          simp only [Loop.frames, List.cons.injEq] at hframes
          rcases hframes with ⟨rfl, rfl⟩
          refine ⟨h.strict, ?_⟩
          simp only [component, cancelNext]
          by_cases hend : s.hasEnded = true
          · rw [if_pos hend]
            exact Or.inl ⟨_, rfl⟩
          · rw [if_neg hend]
            cases s.upstreamSubscribers[i]? with
            | none => exact Or.inl ⟨_, rfl⟩
            | some u =>
                exact Or.inr ⟨.past (.cancelling (i + 1)), rfl, rfl,
                  { hover (.cancelling (i + 1)) rfl rfl with }⟩

end Keeps

theorem counts_init : Counts .quiet ({} : MergeStream (Sigma T)) [] :=
  ⟨Metered.nil, flowWhen_nil _, rfl, fun _ e he => absurd he (by simp),
    fun e he => absurd he (by simp)⟩

/-- As far as balances go the flow control is strict. -/
theorem limited (st : Open (component T publisher))
    (h : Open.Reach subscriptionCheck RequestRules st) : LimitedFlow st.log := by
  have hholds : (flow publisher).Holds st := by
    refine Open.Modes.holds_reach _ _ _ ⟨Loop.quiet, rfl, rfl, counts_init⟩ ?_ ?_ ?_ ?_ ?_ st h
    · intro st l c hl turn hok
      have hturn : l.turn = .outside := hl.turn.symm.trans turn
      have hcounts : Counts l st.state st.log := hl.facts
      cases c with
      | subscribe =>
          have hnote := hcounts.note (t := { st.state with selfLock := true, created := true })
            (.call .subscribe) rfl rfl rfl rfl
          exact owes_subscribeNext hnote hturn
      | request n => exact owes_request hcounts hturn n
      | cancel => exact absurd rfl hok.2
    · intro st l p i o hl turn _ _
      exact owes_said hl.facts (hl.turn.symm.trans turn) p i o st.views
    -- the setting up goes on; at every other point the loop waits
    · intro st l k hl turn _ _ hk
      have hturn : l.turn = .outside := hl.turn.symm.trans turn
      have hcounts : Counts l st.state st.log := hl.facts
      cases k with
      | done => exact ⟨hcounts.strict, Or.inr ⟨l, hturn, rfl, hcounts⟩⟩
      | subscribing => exact owes_subscribeNext hcounts hturn
      | confirmed =>
          exact owes_release (s := { st.state with created := false }) { hcounts with } hturn
      | deliver => exact absurd hk (by simp [flow, Point.waits])
      | consumed e => exact absurd hk (by simp [flow, Point.waits])
      | delivered => exact absurd hk (by simp [flow, Point.waits])
      | failed => exact absurd hk (by simp [flow, Point.waits])
      | finished => exact absurd hk (by simp [flow, Point.waits])
      | cancelling i => exact absurd hk (by simp [flow, Point.waits])
      | cancelled i => exact absurd hk (by simp [flow, Point.waits])
    · intro st l who k rest frames hl _ _ _ _ hframes
      exact owes_back k frames hl.facts hframes st.views
    · intro st l k hl turn _
      have hk : l.turn = .run k := hl.turn.symm.trans turn
      have hcounts : Counts l st.state st.log := hl.facts
      cases l with
      | looping =>
          simp only [Loop.turn, Turn.run.injEq] at hk
          subst hk
          exact owes_deliver hcounts
      | quiet => exact absurd hk (by simp [Loop.turn])
      | consuming e => exact absurd hk (by simp [Loop.turn])
      | delivered => exact absurd hk (by simp [Loop.turn])
      | past a =>
          cases a with
          | cancelling i =>
              simp only [Loop.turn, Turn.run.injEq] at hk
              subst hk
              exact owes_cancelLoop i hcounts
          | none => exact absurd hk (by simp [Loop.turn])
          | failed => exact absurd hk (by simp [Loop.turn])
          | finished => exact absurd hk (by simp [Loop.turn])
          | cancelled i => exact absurd hk (by simp [Loop.turn])
  rcases hholds with ⟨l, hl⟩ | ⟨-, hsafe⟩
  · have hcounts : Counts l st.state st.log := hl.facts
    exact hcounts.strict
  · exact hsafe

end MergeStream

end RxCppUniq
