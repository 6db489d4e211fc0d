import RxCppUniq.Flow.GeneratingRuns
import RxCppUniq.Reactive.Listing
import RxCppUniq.Theory.Total
import RxCppUniq.Theory.Transport

/-!
# Runs that Deliver a Listing

Whatever stands for a listing delivers its events, the first ones, and as many
as were asked for. This is shown of the generator that steps through the
listing, and carried over by the simulation to any other machine.

A subscriber may call the stream at any time, also in the calls of the stream.
It does not cancel a stream that has published its last event.

## Main definitions

* `Subscribing`: What the subscriber may do, told from the calls before.
* `Listing.Delivers`: What the subscriber has received.
* `Listing.Behaves`: What holds in every state of a run.

## Theorems

* `Listing.stream_delivers`: The generator of a listing delivers it.
* `Listing.behaves_of_simulation`: Whatever stands for a listing delivers it.
-/

namespace RxCppUniq

open Theory Theory.Machine

open GeneratingStream (NoParts SubscriberRules Demanded Made destroyed)

variable {T : Type}

/-- A subscriber calls a stream through the subscription it was handed, asks for
    at least one event, and does not cancel a stream that has ended. -/
def Subscribing (log : Log T Empty NoParts) : Call → Prop
  | .subscribe => log.isEmpty = true
  | .request n => subscribed log = true ∧ 1 ≤ n ∧ n ≤ kMax
  | .cancel => subscribed log = true ∧ ∀ e ∈ received log, e.isEnd = false

instance (log : Log T Empty NoParts) (c : Call) : Decidable (Subscribing log c) :=
  match c with
  | .subscribe => inferInstanceAs (Decidable (_ = _))
  | .request _ => inferInstanceAs (Decidable (_ ∧ _ ∧ _))
  | .cancel => inferInstanceAs (Decidable (_ ∧ _))

theorem StatusOr.isEnd_of_isDone (e : StatusOr T) (h : e.isDone = true) : e.isEnd = true := by
  rw [StatusOr.isDone, beq_iff_eq] at h
  rw [StatusOr.isEnd, h]
  rfl

section Stage

variable {late broken : Prop}

/-- A stream that has handed out its subscription goes on until it has ended. -/
theorem stage_of_subscribed (log : Log T Empty NoParts) (h : subscribed log = true) :
    (streamProtocol T late broken).stage log = .live ∨
      (streamProtocol T late broken).stage log ≠ .fresh ∧ ∃ e ∈ received log, e.isEnd = true := by
  induction log with
  | nil => cases h
  | cons n log ih =>
      cases n with
      | call c =>
          rw [received_cons, Entry.received, Option.toList_none, List.append_nil]
          exact ih h
      | ask p c =>
          rw [received_cons, Entry.received, Option.toList_none, List.append_nil]
          exact ih h
      | said p i s => cases i
      | out s =>
          rw [received_cons]
          cases s with
          | onSubscribe => exact Or.inl rfl
          | destroy =>
              rw [Entry.received, Signal.event?, Option.toList_none, List.append_nil]
              exact ih h
          | onNext e =>
              rw [Entry.received, Signal.event?, Option.toList_some]
              simp only [Protocol.stage, streamProtocol]
              by_cases hend : e.isEnd = true
              · right
                refine ⟨?_, e, List.mem_append_right _ (List.mem_singleton_self e), hend⟩
                by_cases hdone : e.isDone = true
                · simp only [hdone, if_true, ne_eq, reduceCtorEq, not_false_eq_true]
                · simp only [hdone, if_false, hend, if_true, ne_eq, reduceCtorEq,
                    not_false_eq_true, Bool.false_eq_true]
              · rw [if_neg (fun hdone => hend (e.isEnd_of_isDone hdone)), if_neg hend]
                rcases ih h with hlive | ⟨hne, e', he', hend'⟩
                · exact Or.inl hlive
                · exact Or.inr ⟨hne, e', List.mem_append_left _ he', hend'⟩

/-- What the subscriber may do is what the protocol allows. -/
theorem allow_of_subscribing (log : Log T Empty NoParts) (c : Call) (h : Subscribing log c) :
    (streamProtocol T late broken).allow ((streamProtocol T late broken).stage log) c := by
  have hfresh : subscribed log = true → (streamProtocol T late broken).stage log ≠ .fresh := by
    intro hsub
    have hne : StreamStage.live ≠ .fresh := by simp only [ne_eq, reduceCtorEq, not_false_eq_true]
    rcases @stage_of_subscribed _ late broken log hsub with hlive | hend
    · rw [hlive]
      exact hne
    · exact hend.1
  cases c with
  | subscribe =>
      rw [List.isEmpty_iff.mp h]
      rfl
  | request n => exact ⟨hfresh h.1, h.2⟩
  | cancel =>
      left
      rcases stage_of_subscribed log h.1 with hlive | ⟨-, e, he, hend⟩
      · exact hlive
      · exact absurd ((h.2 e he).symm.trans hend) Bool.false_ne_true

/-- A stream that has failed has published an error. -/
theorem error_of_failed (log : Log T Empty NoParts)
    (h : (streamProtocol T late broken).stage log = .failed) :
    ∃ e ∈ received log, e.isError = true := by
  induction log with
  | nil => cases h
  | cons n log ih =>
      cases n with
      | call c =>
          rw [received_cons, Entry.received, Option.toList_none, List.append_nil]
          exact ih h
      | ask p c =>
          rw [received_cons, Entry.received, Option.toList_none, List.append_nil]
          exact ih h
      | said p i s => cases i
      | out s =>
          rw [received_cons]
          cases s with
          | onSubscribe => cases h
          | destroy =>
              rw [Entry.received, Signal.event?, Option.toList_none, List.append_nil]
              exact ih h
          | onNext e =>
              rw [Entry.received, Signal.event?, Option.toList_some]
              simp only [Protocol.stage, streamProtocol] at h
              by_cases hdone : e.isDone = true
              · simp only [hdone, if_true, reduceCtorEq] at h
              · rw [if_neg hdone] at h
                rw [Bool.not_eq_true] at hdone
                by_cases hend : e.isEnd = true
                · refine ⟨e, List.mem_append_right _ (List.mem_singleton_self e), ?_⟩
                  rw [StatusOr.isError, hdone, Bool.not_false, Bool.and_true]
                  exact hend
                · rw [if_neg hend] at h
                  rcases ih h with ⟨e', he', herror⟩
                  exact ⟨e', List.mem_append_left _ he', herror⟩

end Stage

namespace Listing

variable {x : Listing T}

/-- What the subscriber has received when it has the turn: the first events of
    the listing, and all that it has asked for when every call has returned. -/
structure Delivers (x : Listing T) {A : Operator T Empty NoParts} (st : Open A) : Prop where
  exact : received st.log = x.events.take (received st.log).length
  demanded : Demanded st.log (received st.log).length
  /-- With a finite demand these are as many events as were asked for. -/
  finite : cancelCalled st.log = false → st.stack = [] → (outstanding st.log).balance ≠ kMax →
    received st.log = x.events.take (demand st.log)
  /-- With an infinite demand they are all. -/
  infinite : cancelCalled st.log = false → st.stack = [] →
    (outstanding st.log).balance = kMax → received st.log = x.events
  /-- Nothing is delivered after a cancellation. -/
  cut : ∀ new old, st.log = new ++ .call .cancel :: old → received st.log = received old
  /-- The subscriber is destroyed once, when the stream ends. -/
  deleted : destroyed st.log = if A.look st.state then 1 else 0
  cause : A.look st.state = true →
    cancelCalled st.log = true ∨ ∃ e ∈ received st.log, e.isEnd = true
  /-- At rest after its last event it is not there any more. -/
  gone : st.stack = [] → (∃ e ∈ received st.log, e.isEnd = true) → A.look st.state = true

/-- The first events that the generator of a listing makes. -/
theorem events_eq (n : Nat) :
    GeneratingStream.events (Source.step x.ending x.notOk) n x.values = x.events.take n :=
  Source.events_step x.ending x.notOk n x.values

/-- All has been received when an end has. -/
theorem received_all {x : Listing T} {l : List (StatusOr T)} (hexact : l = x.events.take l.length)
    (hend : ∃ e ∈ l, e.isEnd = true) : l = x.events := by
  rcases hend with ⟨e, he, hend⟩
  by_cases hlt : l.length ≤ x.values.length
  · rw [hexact, events, valuesThen, List.take_append_of_le_length (by rwa [List.length_map]),
      ← List.map_take] at he
    rcases List.mem_map.mp he with ⟨v, -, rfl⟩
    cases hend
  · rw [hexact]
    refine List.take_of_length_le ?_
    rw [events, valuesThen, List.length_append, List.length_map, List.length_singleton]
    omega

/-- Its runs are those of any generator. -/
theorem reach_stream {st : Open x.stream}
    (h : Open.Reach subscriptionCheck (LogRules Subscribing) st) :
    Open.Reach subscriptionCheck SubscriberRules st := by
  refine h.mono fun st m hok => ?_
  cases m with
  | call c =>
      cases c with
      | subscribe => exact hok
      | request n => exact ⟨hok.1, hok.2.2⟩
      | cancel => exact hok.1
  | said p i o => trivial
  | reply => trivial
  | view p v => trivial
  | run => trivial

/-- The generator of a listing delivers it. -/
theorem stream_delivers {st : Open x.stream}
    (h : Open.Reach subscriptionCheck (LogRules Subscribing) st) (hturn : st.turn = .outside) :
    x.Delivers st := by
  have hreach := reach_stream h
  have hinv := GeneratingStream.inv_reach st hreach
  -- at rest all that was asked for is there already
  have hrest : cancelCalled st.log = false → st.stack = [] →
      ∀ k, Demanded st.log k → x.events.take k <+: received st.log := by
    intro hcancel hstack k hk
    rcases GeneratingStream.deliver_all hreach hcancel k hk with ⟨st', hlater, hbegin⟩
    rw [GeneratingStream.later_at_rest hturn hstack hlater, events_eq] at hbegin
    exact hbegin
  have hexact : received st.log = x.events.take (received st.log).length := by
    rw [← events_eq]
    exact hinv.made.events
  have hlength : (received st.log).length ≤ x.events.length := by
    have hmin := congrArg List.length hexact
    rw [List.length_take] at hmin
    omega
  refine ⟨hexact, hinv.made.demanded, ?_, ?_, hinv.made.cut, hinv.made.deleted, hinv.made.cause,
    ?_⟩
  · intro hcancel hstack hmax
    have hle : (received st.log).length ≤ demand st.log := hinv.made.demanded.resolve_left hmax
    have hbegin := hrest hcancel hstack _ (Or.inr (Nat.le_refl (demand st.log)))
    refine (hbegin.eq_of_length_le ?_).symm
    rw [List.length_take]
    omega
  · intro hcancel hstack hmax
    have hbegin := hrest hcancel hstack x.events.length (Or.inl hmax)
    rw [List.take_length] at hbegin
    exact (hbegin.eq_of_length_le hlength).symm
  · rintro hstack ⟨e, he, hend⟩
    cases hinv.phase with
    | ended hended _ _ => exact hended
    | idle _ _ _ _ hno _ => exact absurd ((hno e he).symm.trans hend) Bool.false_ne_true
    | looping _ hrun _ _ _ => cases hturn.symm.trans hrun
    | delivering isEnd _ _ hloops _ _ _ =>
        rw [hstack] at hloops
        cases hloops

/-- How many values are left, in units of the calls of one round. -/
def size (s : GeneratingStream (List T)) : Nat :=
  3 * s.state.length

/-- The calls that are left when one of the subscriber returns. -/
def toReturn : GeneratingStream.Point → Nat
  | .done => 1
  | .generate => 3
  | .sent isEnd => if isEnd then 2 else 3

/-- A round of the loop leaves less to do. -/
theorem less_of_generate {s : GeneratingStream (List T)} {v : Machine.Outcome x.stream}
    (hruns : Runs x.stream (s, .goto .generate) v) :
    Less (A := x.stream) size toReturn (size s + 3) v := by
  by_cases hmore : s.requested.hasRequests = true
  · rcases RequestBalance.remove_isSome _ ((RequestBalance.hasRequests_iff _).mp hmore) with ⟨c, hc⟩
    cases hstate : s.state with
    | nil =>
        rw [hruns.unique (runs_status hstate hmore hc)]
        refine .out _ _ _ ?_
        simp only [size, toReturn, if_true]
        omega
    | cons v vs =>
        rw [hruns.unique (runs_value hstate hmore hc)]
        refine .out _ _ _ ?_
        simp only [size, hstate, toReturn, Bool.false_eq_true, if_false, List.length_cons]
        omega
  · rw [Bool.not_eq_true] at hmore
    rw [hruns.unique (GeneratingStream.runs_none hmore)]
    exact .ret _ (Nat.lt_add_of_pos_right (by omega))

/-- Every call that returns leaves less to do. -/
theorem less_of_resume (s : GeneratingStream (List T)) (l : GeneratingStream.Point)
    (v : Machine.Outcome x.stream) (hruns : Runs x.stream (x.stream.resume noViews s l) v) :
    Less (A := x.stream) size toReturn (size s + toReturn l) v := by
  cases l with
  | generate =>
      exact less_of_generate (Runs.go (A := x.stream) s GeneratingStream.Point.generate v hruns)
  | done =>
      rw [hruns.unique GeneratingStream.runs_done]
      exact .ret _ (Nat.lt_succ_self _)
  | sent isEnd =>
      have hpos : 0 < toReturn (.sent isEnd) := by
        cases isEnd <;> simp only [toReturn, Bool.false_eq_true, if_true, if_false] <;> omega
      by_cases hended : s.hasEnded = true
      · rw [hruns.unique (GeneratingStream.runs_ended isEnd hended)]
        exact .ret _ (Nat.lt_add_of_pos_right hpos)
      · rw [Bool.not_eq_true] at hended
        cases isEnd with
        | true =>
            rw [hruns.unique (GeneratingStream.runs_last hended)]
            exact .out _ _ _ (Nat.lt_succ_self _)
        | false =>
            refine less_of_generate ?_
            have hcode : x.stream.resume noViews s (.sent false) = (s, .goto .generate) := by
              change s.sent false = _
              rw [GeneratingStream.sent, hended]
              rfl
            rwa [hcode] at hruns

section Carried

variable {A : Operator T Empty NoParts} {late broken : Prop}

/-- What holds in every state of a run. A stream gives up only after it has
    published an error, if it does so at all, and unless it does every call
    returns. -/
structure Behaves (x : Listing T) (broken : Prop) (st : Open A) : Prop where
  delivers : st.turn = .outside → x.Delivers st
  failed : st.turn.isFailed = true → broken ∧ ∃ e ∈ received st.log, e.isError = true
  settles : ∃ st', Open.Later subscriptionCheck Returns st st' ∧
    (st'.turn = .outside ∧ st'.stack = [] ∨
      st'.turn.isFailed = true ∧ broken ∧ ∃ e ∈ received st'.log, e.isError = true)

/-- What was received does not depend on who has sent it. -/
theorem Delivers.of_linked {B : Operator T Empty NoParts} {proto : Protocol Call (Signal T)}
    {S : Simulation subscriptionCheck proto A B} {st : Open A} {st' : Open B}
    {ks : List (A.Point × B.Point)} (h : x.Delivers st') (hlinked : S.Linked st st' ks) :
    x.Delivers st := by
  have hstack : st.stack = [] → st'.stack = [] := by
    intro hnil
    rw [hlinked.stack, List.map_eq_nil_iff] at hnil
    rw [hlinked.stack', hnil]
    rfl
  have hlook : A.look st.state = B.look st'.state := S.look _ _ _ _ hlinked.rel
  have hlog := hlinked.log
  refine ⟨?_, ?_, ?_, ?_, ?_, ?_, ?_, ?_⟩
  · rw [← hlog]
    exact h.exact
  · rw [← hlog]
    exact h.demanded
  · rw [← hlog]
    exact fun hcancel hnil hmax => h.finite hcancel (hstack hnil) hmax
  · rw [← hlog]
    exact fun hcancel hnil hmax => h.infinite hcancel (hstack hnil) hmax
  · rw [← hlog]
    exact h.cut
  · rw [← hlog, hlook]
    exact h.deleted
  · rw [← hlog, hlook]
    exact h.cause
  · rw [← hlog, hlook]
    exact fun hnil => h.gone (hstack hnil)

/-- What stands for a machine that delivers the listing delivers it, in every
    run. -/
theorem behaves_of {B : Operator T Empty NoParts} {proto : Protocol Call (Signal T)}
    {allow : Log T Empty NoParts → Call → Prop} (S : Simulation subscriptionCheck proto A B)
    (hallow : ∀ log c, allow log c → proto.allow (proto.stage log) c)
    (hbroken : ∀ log : Log T Empty NoParts, proto.broken (proto.stage log) →
      broken ∧ ∃ e ∈ received log, e.isError = true)
    (hdelivers : ∀ st' : Open B, Open.Reach subscriptionCheck (LogRules allow) st' →
      st'.turn = .outside → x.Delivers st')
    (size : B.State → Nat) (weight : B.Point → Nat)
    (hless : ∀ s l v, Runs B (B.resume noViews s l) v → Less size weight (size s + weight l) v)
    (st : Open A) (h : Open.Reach subscriptionCheck (LogRules allow) st) : x.Behaves broken st := by
  refine ⟨fun hturn => ?_, fun hfailed => ?_, ?_⟩
  · cases S.reach hallow st h with
    | outside st' ks hreached hlinked =>
        exact (hdelivers st' hreached hlinked.turn').of_linked hlinked
    | inside k mid r ks hturn' => cases hturn.symm.trans hturn'
    | failed msg hturn' => cases hturn.symm.trans hturn'
  · cases S.reach hallow st h with
    | outside st' ks hreached hlinked =>
        rw [hlinked.turn] at hfailed
        cases hfailed
    | inside k mid r ks hturn' =>
        rw [hturn'] at hfailed
        cases hfailed
    | failed msg hturn' hgave => exact hbroken _ hgave
  · rcases S.settles hallow size weight hless st h
      with ⟨st2, hlater, hrest | ⟨hfailed, hgave⟩⟩
    · exact ⟨st2, hlater, Or.inl hrest⟩
    · exact ⟨st2, hlater, Or.inr ⟨hfailed, hbroken _ hgave⟩⟩

/-- Whatever stands for a listing delivers it, in every run. -/
theorem behaves_of_simulation
    (S : Simulation subscriptionCheck (streamProtocol T late broken) A x.stream)
    (st : Open A) (h : Open.Reach subscriptionCheck (LogRules Subscribing) st) :
    x.Behaves broken st :=
  behaves_of S allow_of_subscribing (fun log hgave => ⟨hgave.2, error_of_failed log hgave.1⟩)
    (fun _ hreached hturn => stream_delivers hreached hturn) size toReturn less_of_resume st h

end Carried

end Listing

end RxCppUniq
