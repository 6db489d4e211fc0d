import RxCppUniq.Reactive.Generating

/-!
# Runs of a Generating Stream

The loop of `Generate` is entered by `Request`, and `Request` may be called
from inside of it: the subscriber is called in the loop, and in the call of
`OnSubscribe` the stream is not even constructed. A flag keeps the loop from
being entered twice; the inner `Request` only adds to the balance, which the
loop looks at when the subscriber has returned.

The invariant says where a stream is: ended, idle, at the head of the loop, or
waiting in it for the subscriber to return. In every one of these the events
that were delivered are the first ones of the generator, one for each time it
was run. As long as demand is left the stream is in the loop, so it goes on
delivering whenever the calls of the subscriber return.

## Main definitions

* `GeneratingStream.SubscriberRules`: What the subscriber may do.
* `GeneratingStream.Demanded`: So many events were asked for.
* `GeneratingStream.Made`: What was delivered, next to the state of the
  stream.
* `GeneratingStream.Phase`: Where a stream is.
* `GeneratingStream.DeliversPrefix`: What holds of every run.

## Theorems

* `GeneratingStream.inv_reach`: The invariant holds of every reachable state.
* `GeneratingStream.deliver_next`: With demand left, one more event is
  delivered when the calls of the subscriber return.
* `GeneratingStream.delivers_prefix`: A generating stream delivers the first
  events, as many as were asked for.
-/

namespace RxCppUniq

open Theory

namespace GeneratingStream

variable {S T : Type}

/-- The destructor of the subscriber is called. -/
@[simp] def destroys : Entry T Empty NoParts → Nat
  | .call _ => 0
  | .out s => match s with
    | .onSubscribe => 0
    | .onNext _ => 0
    | .destroy => 1
  | .ask _ _ => 0
  | .said _ _ _ => 0

/-- How often the stream was deleted, which destroys its subscriber. -/
def destroyed (log : Log T Empty NoParts) : Nat :=
  tally destroys log

@[simp] theorem destroyed_nil : destroyed ([] : Log T Empty NoParts) = 0 := rfl

@[simp] theorem destroyed_cons (n : Entry T Empty NoParts) (log : Log T Empty NoParts) :
    destroyed (n :: log) = destroyed log + destroys n :=
  tally_cons _ _ _

/-- A subscriber calls a stream through the subscription it was handed. It may
    ask for any number of events, also for none. -/
def Subscribed (log : Log T Empty NoParts) : Call → Prop
  | .subscribe => log.isEmpty = true
  | .request n => subscribed log = true ∧ n ≤ kMax
  | .cancel => subscribed log = true

/-- The rules for the subscriber. A `Request` or `Cancel` after the stream has
    ended is kept out by the check of the subscription. -/
def SubscriberRules {generator : S → StatusOr T × S} {initial : S}
    (st : Open (component generator initial)) :
    Move Call Bool Empty (fun i => Signal (NoParts i)) → Prop
  | .call c => Subscribed st.log c
  | .said _ _ _ => True
  | .reply => True
  | .view _ _ => True
  | .run => True

/-- The rules of a run in which the subscriber only returns from the calls of
    the stream. -/
def Returning {generator : S → StatusOr T × S} {initial : S}
    (_ : Open (component generator initial)) :
    Move Call Bool Empty (fun i => Signal (NoParts i)) → Prop
  | .call _ => False
  | .said _ _ _ => False
  | .reply => True
  | .view _ _ => False
  | .run => True

instance (log : Log T Empty NoParts) (c : Call) : Decidable (Subscribed log c) :=
  match c with
  | .subscribe => inferInstanceAs (Decidable (_ = _))
  | .request _ => inferInstanceAs (Decidable (_ ∧ _))
  | .cancel => inferInstanceAs (Decidable (_ = _))

instance {generator : S → StatusOr T × S} {initial : S} (st : Open (component generator initial))
    (m : Move Call Bool Empty (fun i => Signal (NoParts i))) : Decidable (SubscriberRules st m) :=
  match m with
  | .call _ => inferInstanceAs (Decidable (Subscribed _ _))
  | .said _ _ _ => inferInstanceAs (Decidable True)
  | .reply => inferInstanceAs (Decidable True)
  | .view _ _ => inferInstanceAs (Decidable True)
  | .run => inferInstanceAs (Decidable True)

/-- The subscriber has asked for `k` events: all requests together were for as
    many, or the balance has become infinite. -/
def Demanded (log : Log T Empty NoParts) (k : Nat) : Prop :=
  (outstanding log).balance = kMax ∨ k ≤ demand log

/-- An infinite balance stays infinite when an event is delivered. -/
theorem outstanding_deliver (e : StatusOr T) (log : Log T Empty NoParts)
    (h : (outstanding log).balance = kMax) :
    (outstanding (.out (.onNext e) :: log)).balance = kMax := by
  rw [outstanding_cons, RequestBalance.counted, Entry.demand, RequestBalance.add_zero,
    RequestBalance.remove_kMax _ _ h]
  exact h

theorem Demanded.deliver {log : Log T Empty NoParts} {k : Nat} (h : Demanded log k)
    (e : StatusOr T) : Demanded (.out (.onNext e) :: log) k :=
  h.imp (outstanding_deliver e log) id

/-- No event that was delivered is an end. -/
def NoEnd (log : Log T Empty NoParts) : Prop :=
  ∀ e ∈ received log, e.isEnd = false

/-- What was delivered, next to the state of the stream. -/
structure Made (generator : S → StatusOr T × S) (initial : S) (s : GeneratingStream S)
    (log : Log T Empty NoParts) : Prop where
  events : received log = events generator (received log).length initial
  generated : s.state = after generator (received log).length initial
  demanded : Demanded log (received log).length
  /-- What is outstanding was asked for and not delivered. -/
  account : (outstanding log).balance = kMax ∨
    (outstanding log).balance + values (received log) = demand log
  balance : s.hasEnded = false → NoEnd log → s.requested = outstanding log
  deleted : destroyed log = if s.hasEnded then 1 else 0
  cause : s.hasEnded = true → cancelCalled log = true ∨ ∃ e ∈ received log, e.isEnd = true
  cancelled : cancelCalled log = true → s.hasEnded = true
  cut : ∀ new old, log = new ++ .call .cancel :: old → received log = received old

/-- The flag of an event whose delivery is waited for. -/
@[simp] def Point.delivering : Point → Option Bool
  | .done => none
  | .generate => none
  | .sent isEnd => some isEnd

/-- The loops that wait for the subscriber to return, with the flags of their
    events. -/
def deliveries (stack : List (Callee × Point)) : List Bool :=
  stack.filterMap fun f => f.2.delivering

@[simp] theorem deliveries_cons (f : Callee × Point) (stack : List (Callee × Point)) :
    deliveries (f :: stack) = f.2.delivering.toList ++ deliveries stack := by
  cases h : f.2.delivering <;>
    simp only [deliveries, List.filterMap_cons, h, Option.toList_none, Option.toList_some,
      List.nil_append, List.cons_append]

/-- The calls of `Generate` that are under way. -/
def active {generator : S → StatusOr T × S} {initial : S}
    (st : Open (component generator initial)) : Nat :=
  (deliveries st.stack).length + match st.turn with
    | .outside => 0
    | .run _ => 1
    | .failed _ => 0

/-- Where a stream is. -/
inductive Phase {generator : S → StatusOr T × S} {initial : S}
    (st : Open (component generator initial)) : Prop where
  | ended (hasEnded : st.state.hasEnded = true) (turn : st.turn = .outside)
      (loops : (deliveries st.stack).length ≤ 1)
  | idle (hasEnded : st.state.hasEnded = false) (turn : st.turn = .outside)
      (loops : deliveries st.stack = []) (generating : st.state.generating = false)
      (noEnd : NoEnd st.log) (served : st.state.requested.hasRequests = false)
  | looping (hasEnded : st.state.hasEnded = false) (turn : st.turn = .run .generate)
      (loops : deliveries st.stack = []) (generating : st.state.generating = true)
      (noEnd : NoEnd st.log)
  | delivering (isEnd : Bool) (hasEnded : st.state.hasEnded = false) (turn : st.turn = .outside)
      (loops : deliveries st.stack = [isEnd]) (generating : st.state.generating = true)
      (more : isEnd = false → NoEnd st.log)
      (last : isEnd = true → ∃ e ∈ received st.log, e.isEnd = true)

structure Inv {generator : S → StatusOr T × S} {initial : S}
    (st : Open (component generator initial)) : Prop where
  made : Made generator initial st.state st.log
  phase : Phase st
  waiting : ∀ f ∈ st.stack, f.2 ≠ .generate

namespace Made

variable {generator : S → StatusOr T × S} {initial : S} {s s' : GeneratingStream S}
  {log : Log T Empty NoParts}

theorem start : Made generator initial ({ state := initial } : GeneratingStream S) [] where
  events := rfl
  generated := rfl
  demanded := Or.inr (Nat.le_refl _)
  account := Or.inr rfl
  balance _ _ := rfl
  deleted := rfl
  cause h := absurd h Bool.false_ne_true
  cancelled h := absurd h Bool.false_ne_true
  cut new old h := by
    rw [List.nil_eq, List.append_eq_nil_iff] at h
    exact absurd h.2 (List.cons_ne_nil _ _)

/-- What was delivered up to a cancellation does not change by a call that
    delivers nothing. -/
theorem cut_cons (h : Made generator initial s log) (n : Entry T Empty NoParts)
    (hn : n.received = none) (new old : Log T Empty NoParts)
    (heq : n :: log = new ++ .call .cancel :: old) :
    received (n :: log) = received old := by
  rw [received_cons, hn, Option.toList_none, List.append_nil]
  cases new with
  | nil =>
      rw [List.nil_append, List.cons.injEq] at heq
      rw [heq.2]
  | cons m new =>
      rw [List.cons_append, List.cons.injEq] at heq
      exact h.cut new old heq.2

/-- A call that delivers nothing, neither cancels nor deletes, and is counted
    by the balance. -/
theorem call (h : Made generator initial s log) (n : Entry T Empty NoParts)
    (hreceived : n.received = none) (hserved : n.served = 0) (hdestroys : destroys n = 0)
    (hcancel : n.isCancel = false) (hended : s'.hasEnded = s.hasEnded)
    (hstate : s'.state = s.state) (hrequested : s'.requested = s.requested.add n.demand) :
    Made generator initial s' (n :: log) := by
  have hsame : received (n :: log) = received log := by
    rw [received_cons, hreceived, Option.toList_none, List.append_nil]
  have hbalance : outstanding (n :: log) = (outstanding log).add n.demand := by
    rw [outstanding_cons, hserved, RequestBalance.counted_add]
  have hadd := RequestBalance.balance_add (outstanding log) n.demand
  refine ⟨?_, ?_, ?_, ?_, ?_, ?_, ?_, ?_, h.cut_cons n hreceived⟩
  · rw [hsame]
    exact h.events
  · rw [hsame, hstate]
    exact h.generated
  · rw [Demanded, hsame, hbalance, demand_cons, hadd]
    have hle := (outstanding log).le_kMax
    rcases h.demanded with hmax | hdemand
    · left
      omega
    · right
      omega
  · rw [hsame, hbalance, demand_cons, hadd]
    have hle := (outstanding log).le_kMax
    -- the balance may have been saturated; otherwise the new demand is added to it
    rcases h.account with hmax | haccount
    · left
      omega
    · by_cases hlt : (outstanding log).balance + n.demand < kMax
      · right
        omega
      · left
        omega
  · intro hrun hno
    rw [NoEnd, hsame] at hno
    rw [hrequested, hbalance, h.balance (hended ▸ hrun) hno]
  · rw [destroyed_cons, hdestroys, hended, Nat.add_zero]
    exact h.deleted
  · rw [hended, hsame, cancelCalled_cons, hcancel, Bool.false_or]
    exact h.cause
  · rw [hended, cancelCalled_cons, hcancel, Bool.false_or]
    exact h.cancelled

/-- The stream is deleted after its end. -/
theorem delete (h : Made generator initial s log) (hrun : s.hasEnded = false)
    (hend : ∃ e ∈ received log, e.isEnd = true) :
    Made generator initial { s with hasEnded := true } (.out .destroy :: log) := by
  have hsame : received (.out .destroy :: log) = received log := by
    rw [received_cons]
    exact List.append_nil _
  have hbalance : outstanding (.out .destroy :: log) = outstanding log := by
    rw [outstanding_cons, Entry.served, Entry.demand, RequestBalance.counted_add,
      RequestBalance.add_zero]
  refine ⟨?_, ?_, ?_, ?_, fun hrun => absurd hrun.symm Bool.false_ne_true, ?_, ?_, fun _ => rfl,
    h.cut_cons _ rfl⟩
  · rw [hsame]
    exact h.events
  · rw [hsame]
    exact h.generated
  · rw [Demanded, hsame, hbalance, demand_cons, Entry.demand, Nat.add_zero]
    exact h.demanded
  · rw [hsame, hbalance, demand_cons, Entry.demand, Nat.add_zero]
    exact h.account
  · rw [destroyed_cons, h.deleted, hrun]
    rfl
  · intro _
    rw [hsame]
    exact Or.inr hend

/-- The stream is deleted in `Cancel`. -/
theorem cancel (h : Made generator initial s log) (hrun : s.hasEnded = false) :
    Made generator initial { s with hasEnded := true } (.out .destroy :: .call .cancel :: log) := by
  have hsame : received (.out .destroy :: .call .cancel :: log) = received log := by
    rw [received_cons, received_cons]
    exact (List.append_nil _).trans (List.append_nil _)
  have hbalance : outstanding (.out .destroy :: .call .cancel :: log) = outstanding log := by
    simp only [outstanding_cons, Entry.served, Entry.demand, Call.count,
      RequestBalance.counted_add, RequestBalance.add_zero]
  have hdemand : demand (.out .destroy :: .call .cancel :: log) = demand log := rfl
  refine ⟨?_, ?_, ?_, ?_, fun hrun => absurd hrun.symm Bool.false_ne_true, ?_,
    fun _ => Or.inl rfl, fun _ => rfl, ?_⟩
  · rw [hsame]
    exact h.events
  · rw [hsame]
    exact h.generated
  · rw [Demanded, hsame, hbalance, hdemand]
    exact h.demanded
  · rw [hsame, hbalance, hdemand]
    exact h.account
  · rw [destroyed_cons, destroyed_cons, h.deleted, hrun]
    rfl
  · intro new old heq
    rw [hsame]
    rcases new with _ | ⟨n, _ | ⟨m, new⟩⟩
    · rw [List.nil_append, List.cons.injEq] at heq
      exact absurd heq.1 (by simp only [reduceCtorEq, not_false_eq_true])
    · rw [List.cons_append, List.nil_append, List.cons.injEq, List.cons.injEq] at heq
      rw [heq.2.2]
    · rw [List.cons_append, List.cons_append, List.cons.injEq, List.cons.injEq] at heq
      exact h.cut new old heq.2.2

/-- One event more is made and delivered. -/
theorem deliver (h : Made generator initial s log) (hrun : s.hasEnded = false)
    (hno : NoEnd log) (b : RequestBalance) (hpos : 0 < s.requested.balance)
    (hb : s.requested.remove 1 = some b) :
    Made generator initial { s with requested := b, state := (generator s.state).2 }
      (.out (.onNext (generator s.state).1) :: log) := by
  have hbal := h.balance hrun hno
  rw [hbal] at hpos hb
  have hnext : received (.out (.onNext (generator s.state).1) :: log) =
      received log ++ [(generator s.state).1] := by
    rw [received_cons]
    rfl
  have hlength : (received (.out (.onNext (generator s.state).1) :: log)).length =
      (received log).length + 1 := by
    rw [hnext, List.length_append, List.length_singleton]
  have hdemand : demand (.out (.onNext (generator s.state).1) :: log) = demand log := rfl
  have hvalues : values (received log) = (received log).length := values_eq_length _ hno
  have hle := (outstanding log).le_kMax
  have hmax := outstanding_deliver (generator s.state).1 log
  refine ⟨?_, ?_, ?_, ?_, ?_, ?_, fun hended => ?_, fun hcancel => ?_, ?_⟩
  · rw [hlength, events_succ generator _ initial (by rw [← h.events]; exact hno), ← h.events,
      ← h.generated, hnext]
  · rw [hlength, after_succ, ← h.generated]
  · rw [Demanded, hlength, hdemand]
    rcases h.account with heq | heq
    · exact Or.inl (hmax heq)
    · right
      omega
  · rw [hdemand, hnext, values_append, values_singleton]
    rcases h.account with heq | heq
    · exact Or.inl (hmax heq)
    · by_cases hfull : (outstanding log).balance = kMax
      · exact Or.inl (hmax hfull)
      · right
        rw [outstanding_cons, Entry.demand, Entry.served]
        -- an end is delivered without being counted
        by_cases hend : (generator s.state).1.isEnd = true
        · rw [if_pos hend, RequestBalance.counted_add, RequestBalance.add_zero]
          omega
        · rw [if_neg hend, RequestBalance.counted_remove _ b 1 hb]
          have hone := RequestBalance.remove_of_lt _ _ _ (by omega) hb
          omega
  · intro _ hno'
    have hend := hno' (generator s.state).1 (by
      rw [hnext]
      exact List.mem_append_right _ (List.mem_singleton_self _))
    rw [outstanding_cons, Entry.demand, Entry.served, hend,
      if_neg Bool.false_ne_true, RequestBalance.counted_remove _ b 1 hb]
  · rw [destroyed_cons, destroys, Nat.add_zero]
    exact h.deleted
  · exact absurd (hrun.symm.trans hended) Bool.false_ne_true
  · exact h.cancelled hcancel
  · intro new old heq
    have hcancel := cancelCalled_of_append new old _ heq
    exact absurd (hrun.symm.trans (h.cancelled hcancel)) Bool.false_ne_true

/-- The loop ends. -/
theorem idle (h : Made generator initial s log) :
    Made generator initial { s with generating := false } log :=
  ⟨h.events, h.generated, h.demanded, h.account, h.balance, h.deleted, h.cause, h.cancelled, h.cut⟩

end Made

section Steps

variable {generator : S → StatusOr T × S} {initial : S}
  {st : Open (component generator initial)}

/-- A call that delivers nothing changes nothing about the ends among the
    events. -/
theorem NoEnd.cons {log : Log T Empty NoParts} (h : NoEnd log) (n : Entry T Empty NoParts)
    (hn : n.received = none) : NoEnd (n :: log) := by
  rw [NoEnd, received_cons, hn, Option.toList_none, List.append_nil]
  exact h

theorem exists_end_cons {log : Log T Empty NoParts} (h : ∃ e ∈ received log, e.isEnd = true)
    (n : Entry T Empty NoParts) : ∃ e ∈ received (n :: log), e.isEnd = true := by
  rcases h with ⟨e, he, hend⟩
  refine ⟨e, ?_, hend⟩
  rw [received_cons]
  exact List.mem_append_left _ he

/-- A point that is waited for is put on top of the stack. -/
theorem waiting_cons {stack : List (Callee × Point)} (h : ∀ f ∈ stack, f.2 ≠ .generate)
    (who : Callee) (k : Point) (hk : k ≠ .generate) :
    ∀ f ∈ (who, k) :: stack, f.2 ≠ .generate := by
  intro f hf
  rcases List.mem_cons.mp hf with rfl | hf
  · exact hk
  · exact h f hf

/-- A stream that has not ended, and is not running, is idle or waits in its
    loop. -/
theorem Phase.cases_outside (h : Phase st) (hturn : st.turn = .outside)
    (hrun : st.state.hasEnded = false) :
    (deliveries st.stack = [] ∧ st.state.generating = false ∧ NoEnd st.log ∧
        st.state.requested.hasRequests = false) ∨
      ∃ isEnd, deliveries st.stack = [isEnd] ∧ st.state.generating = true ∧
        (isEnd = false → NoEnd st.log) ∧
        (isEnd = true → ∃ e ∈ received st.log, e.isEnd = true) := by
  cases h with
  | ended hasEnded turn loops => exact absurd (hrun.symm.trans hasEnded) Bool.false_ne_true
  | idle hasEnded turn loops generating noEnd served =>
      exact Or.inl ⟨loops, generating, noEnd, served⟩
  | looping hasEnded turn loops generating noEnd =>
      exact absurd (hturn.symm.trans turn) (by simp only [reduceCtorEq, not_false_eq_true])
  | delivering isEnd hasEnded turn loops generating more last =>
      exact Or.inr ⟨isEnd, loops, generating, more, last⟩

/-- A stream that is running is at the head of its loop. -/
theorem Phase.cases_run (h : Phase st) (k : Point) (hturn : st.turn = .run k) :
    k = .generate ∧ st.state.hasEnded = false ∧ deliveries st.stack = [] ∧
      st.state.generating = true ∧ NoEnd st.log := by
  cases h with
  | ended hasEnded turn loops =>
      rw [turn] at hturn
      cases hturn
  | idle hasEnded turn loops generating noEnd served =>
      rw [turn] at hturn
      cases hturn
  | looping hasEnded turn loops generating noEnd =>
      exact ⟨Turn.run.inj (hturn.symm.trans turn), hasEnded, loops, generating, noEnd⟩
  | delivering isEnd hasEnded turn loops generating more last =>
      rw [turn] at hturn
      cases hturn

namespace Inv

theorem subscribe (h : Inv st) (hturn : st.turn = .outside) (hstack : st.stack = [])
    (hrun : st.state.hasEnded = false) :
    Inv (Open.perform subscriptionCheck { st with log := .call .subscribe :: st.log }
      ((component generator initial).call st.views st.state .subscribe)) := by
  have hcalled : Made generator initial st.state (.call .subscribe :: st.log) :=
    h.made.call (.call .subscribe) rfl rfl rfl rfl rfl rfl (RequestBalance.add_zero _).symm
  have hmade : Made generator initial st.state (.out .onSubscribe :: .call .subscribe :: st.log) :=
    hcalled.call (.out .onSubscribe) rfl rfl rfl rfl rfl rfl (RequestBalance.add_zero _).symm
  have hloops : deliveries ((.env, .done) :: st.stack) = [] := by
    rw [hstack]
    rfl
  refine ⟨hmade, ?_, waiting_cons h.waiting .env .done (by decide)⟩
  rcases h.phase.cases_outside hturn hrun with ⟨-, hidle, hno, hserved⟩ | ⟨isEnd, hloop, -⟩
  · exact .idle hrun rfl hloops hidle ((hno.cons _ rfl).cons _ rfl) hserved
  · rw [hstack] at hloop
    exact absurd hloop (List.cons_ne_nil _ _).symm

/-- A `Request` enters the loop, or leaves what it has added to the loop that
    is waiting. -/
theorem request (h : Inv st) (n : Nat) (hturn : st.turn = .outside)
    (hrun : st.state.hasEnded = false) :
    Inv (Open.perform subscriptionCheck { st with log := .call (.request n) :: st.log }
      ((component generator initial).call st.views st.state (.request n))) := by
  change Inv (Open.perform subscriptionCheck _ (st.state.request n))
  rcases h.phase.cases_outside hturn hrun with
    ⟨hloops, hidle, hno, -⟩ | ⟨isEnd, hloops, hbusy, hmore, hlast⟩
  · -- The loop is entered.
    rw [GeneratingStream.request]
    simp only [hidle, Bool.false_eq_true, if_false]
    exact ⟨h.made.call (.call (.request n)) rfl rfl rfl rfl rfl rfl rfl,
      .looping hrun rfl hloops rfl (hno.cons _ rfl), h.waiting⟩
  · -- The loop is waiting for the call in which this `Request` is made.
    rw [GeneratingStream.request]
    simp only [hbusy, if_true]
    refine ⟨h.made.call (.call (.request n)) rfl rfl rfl rfl rfl rfl rfl,
      .delivering isEnd hrun rfl hloops rfl (fun hend => (hmore hend).cons _ rfl)
        (fun hend => exists_end_cons (hlast hend) _), h.waiting⟩

theorem cancel (h : Inv st) (hturn : st.turn = .outside) (hrun : st.state.hasEnded = false) :
    Inv (Open.perform subscriptionCheck { st with log := .call .cancel :: st.log }
      ((component generator initial).call st.views st.state .cancel)) := by
  refine ⟨h.made.cancel hrun, .ended rfl rfl ?_, waiting_cons h.waiting .env .done (by decide)⟩
  change (deliveries ((.env, .done) :: st.stack)).length ≤ 1
  rw [deliveries_cons, Point.delivering, Option.toList_none, List.nil_append]
  rcases h.phase.cases_outside hturn hrun with ⟨hloops, -⟩ | ⟨isEnd, hloops, -⟩
  · rw [hloops]
    exact Nat.zero_le _
  · rw [hloops]
    exact Nat.le_refl _

/-- One round of the loop, up to the call of the subscriber. -/
theorem generate (h : Inv st) (hturn : st.turn = .run .generate) :
    Inv (Open.perform subscriptionCheck st (st.state.generate generator)) := by
  rcases h.phase.cases_run .generate hturn with ⟨-, hrun, hloops, hbusy, hno⟩
  unfold GeneratingStream.generate
  by_cases hmore : st.state.requested.hasRequests = true
  · rw [if_pos hmore]
    have hpos := (RequestBalance.hasRequests_iff _).mp hmore
    rcases RequestBalance.remove_isSome _ hpos with ⟨b, hb⟩
    simp only [hb]
    have hnext : received (.out (.onNext (generator st.state.state).1) :: st.log) =
        received st.log ++ [(generator st.state.state).1] := by
      rw [received_cons]
      rfl
    refine ⟨h.made.deliver hrun hno b hpos hb, ?_, waiting_cons h.waiting .env (.sent _)
      (by simp only [ne_eq, reduceCtorEq, not_false_eq_true])⟩
    refine .delivering (generator st.state.state).1.isEnd hrun rfl ?_ hbusy (fun hend e he => ?_)
      (fun hend => ⟨_, ?_, hend⟩)
    · change deliveries ((.env, .sent _) :: st.stack) = _
      rw [deliveries_cons, hloops]
      rfl
    · rcases List.mem_append.mp (hnext ▸ he) with he | he
      · exact hno e he
      · rw [List.mem_singleton.mp he]
        exact hend
    · exact hnext ▸ List.mem_append_right _ (List.mem_singleton_self _)
  · rw [if_neg hmore]
    rw [Bool.not_eq_true] at hmore
    exact ⟨h.made.idle, .idle hrun rfl hloops rfl hno hmore, h.waiting⟩

/-- A call of the subscriber returns. -/
theorem reply (h : Inv st) (hturn : st.turn = .outside) (who : Callee) (k : Point)
    (rest : List (Callee × Point)) (htop : st.stack = (who, k) :: rest) :
    Inv (Open.perform subscriptionCheck { st with stack := rest }
      ((component generator initial).resume st.views st.state k)) := by
  have hrest : ∀ f ∈ rest, f.2 ≠ .generate := by
    intro f hf
    exact h.waiting f (by rw [htop]; exact List.mem_cons_of_mem _ hf)
  have hloops : deliveries st.stack = k.delivering.toList ++ deliveries rest := by
    rw [htop, deliveries_cons]
  -- the loop waits at `sent`; the other calls return to nowhere
  cases k with
  | generate =>
      have hmem : (who, .generate) ∈ st.stack := by
        rw [htop]
        exact List.mem_cons_self
      exact absurd rfl (h.waiting (who, .generate) hmem)
  | done =>
      rw [Point.delivering, Option.toList_none, List.nil_append] at hloops
      refine ⟨h.made, ?_, hrest⟩
      cases h.phase with
      | ended hasEnded turn loops => exact .ended hasEnded rfl (hloops ▸ loops)
      | idle hasEnded turn loops generating noEnd served =>
          exact .idle hasEnded rfl (hloops ▸ loops) generating noEnd served
      | looping hasEnded turn loops generating noEnd =>
          exact absurd (hturn.symm.trans turn) (by simp only [reduceCtorEq, not_false_eq_true])
      | delivering isEnd hasEnded turn loops generating more last =>
          exact .delivering isEnd hasEnded rfl (hloops ▸ loops) generating more last
  | sent isEnd =>
      rw [Point.delivering, Option.toList_some, List.singleton_append] at hloops
      change Inv (Open.perform subscriptionCheck _ (st.state.sent isEnd))
      unfold sent
      by_cases hended : st.state.hasEnded = true
      · -- The subscriber has cancelled in the call.
        rw [if_pos hended]
        refine ⟨h.made, .ended hended rfl ?_, hrest⟩
        cases h.phase with
        | ended hasEnded turn loops =>
            rw [hloops, List.length_cons] at loops
            exact Nat.le_of_succ_le loops
        | idle hasEnded turn loops generating noEnd served =>
            exact absurd (hasEnded.symm.trans hended) Bool.false_ne_true
        | looping hasEnded turn loops generating noEnd =>
            exact absurd (hasEnded.symm.trans hended) Bool.false_ne_true
        | delivering isEnd hasEnded turn loops generating more last =>
            exact absurd (hasEnded.symm.trans hended) Bool.false_ne_true
      -- of all calls waited for only this one is a delivery
      · rw [if_neg hended]
        rw [Bool.not_eq_true] at hended
        rcases h.phase.cases_outside hturn hended with
          ⟨hnone, -⟩ | ⟨isEnd', hone, hbusy, hmore, hlast⟩
        · rw [hloops] at hnone
          exact absurd hnone (List.cons_ne_nil _ _)
        · rw [hloops, List.cons.injEq] at hone
          rcases hone with ⟨rfl, hnone⟩
          by_cases hend : isEnd = true
          · rw [if_pos hend]
            refine ⟨h.made.delete hended (hlast hend), .ended rfl rfl ?_,
              waiting_cons hrest .env .done (by decide)⟩
            change (deliveries ((.env, .done) :: rest)).length ≤ 1
            rw [deliveries_cons, hnone]
            exact Nat.zero_le _
          · rw [if_neg hend]
            rw [Bool.not_eq_true] at hend
            exact ⟨h.made, .looping hended rfl hnone hbusy (hmore hend), hrest⟩

end Inv

end Steps

/-- The check lets a `Request` or a `Cancel` pass while the stream has not
    ended. -/
theorem running_of_check (hasEnded : Bool) (c : Call)
    (h : subscriptionCheck hasEnded c = none) (hc : c ≠ .subscribe) : hasEnded = false := by
  cases hasEnded with
  | false => rfl
  | true =>
      cases c with
      | subscribe => exact absurd rfl hc
      | request n => cases h
      | cancel => cases h

theorem inv_reach {generator : S → StatusOr T × S} {initial : S}
    (st : Open (component generator initial))
    (h : Open.Reach subscriptionCheck SubscriberRules st) : Inv st := by
  refine Open.Reach.induct Inv ?_ ?_ st h
  · exact ⟨.start, .idle rfl rfl rfl rfl (fun e he => (by cases he)) rfl,
      fun f hf => (by cases hf)⟩
  · intro st st' hreach ih hstep
    cases hstep with
    | call c turn open_ ok =>
        cases c with
        | subscribe =>
            have hlog := List.isEmpty_iff.mp ok
            have hended : st.state.hasEnded = false := by
              have hdeleted := ih.made.deleted
              rw [hlog, destroyed_nil] at hdeleted
              cases hhas : st.state.hasEnded with
              | false => rfl
              | true =>
                  rw [hhas, if_pos rfl] at hdeleted
                  exact absurd hdeleted Nat.zero_ne_one
            exact ih.subscribe turn (hreach.idle st hlog).1 hended
        | request n => exact ih.request n turn (running_of_check _ (.request n) open_ (by
            simp only [ne_eq, reduceCtorEq, not_false_eq_true]))
        | cancel => exact ih.cancel turn (running_of_check _ .cancel open_ (by decide))
    | said p i o turn kind ok => cases i
    | reply who k rest turn top ok => exact ih.reply turn who k rest top
    | view p v turn ok =>
        refine ⟨ih.made, ?_, ih.waiting⟩
        cases ih.phase with
        | ended hasEnded turn loops => exact .ended hasEnded turn loops
        | idle hasEnded turn loops generating noEnd served =>
            exact .idle hasEnded turn loops generating noEnd served
        | looping hasEnded turn loops generating noEnd =>
            exact .looping hasEnded turn loops generating noEnd
        | delivering isEnd hasEnded turn loops generating more last =>
            exact .delivering isEnd hasEnded turn loops generating more last
    | run k turn ok =>
        have hk := (ih.phase.cases_run k turn).1
        subst hk
        exact ih.generate turn

section Progress

variable {generator : S → StatusOr T × S} {initial : S}
  {st st' : Open (component generator initial)}

/-- A run in which the subscriber only returns is one under its rules. -/
theorem reach_returning (h : Open.Reach subscriptionCheck SubscriberRules st)
    (hlater : Open.Later subscriptionCheck Returning st st') :
    Open.Reach subscriptionCheck SubscriberRules st' := by
  induction hlater with
  | refl => exact h
  | tail _ hstep ih =>
      refine .step _ _ ih (hstep.mono fun st m hok => ?_)
      cases m with
      | call c => exact hok.elim
      | said p i o => exact hok.elim
      | reply => trivial
      | view p v => exact hok.elim
      | run => trivial

/-- The calls made by the stream return until its loop goes on. -/
theorem return_to_loop (hturn : st.turn = .outside) (hrun : st.state.hasEnded = false)
    (hwaiting : ∀ f ∈ st.stack, f.2 ≠ .generate) (hloops : deliveries st.stack = [false]) :
    ∃ st', Open.Later subscriptionCheck Returning st st' ∧ st'.turn = .run .generate ∧
      st'.state = st.state ∧ st'.log = st.log := by
  -- on the calls waited for, of which only the last is a delivery
  induction hstack : st.stack generalizing st with
  | nil =>
      rw [hstack] at hloops
      exact absurd hloops (List.cons_ne_nil _ _).symm
  | cons f rest ih =>
      rcases f with ⟨who, k⟩
      have hstep : Open.Step subscriptionCheck Returning st (Open.perform subscriptionCheck
          { st with stack := rest } ((component generator initial).resume st.views st.state k)) :=
        .reply st who k rest hturn hstack trivial
      rw [hstack, deliveries_cons] at hloops
      cases k with
      | generate => exact absurd rfl (hwaiting (who, .generate) (hstack ▸ List.mem_cons_self))
      | done =>
          rw [Point.delivering, Option.toList_none, List.nil_append] at hloops
          rcases @ih { st with stack := rest, turn := .outside } rfl hrun
            (fun f hf => hwaiting f (hstack ▸ List.mem_cons_of_mem _ hf)) hloops rfl with
            ⟨st', hlater, hturn', hstate, hlog⟩
          exact ⟨st', .head hstep hlater, hturn', hstate, hlog⟩
      | sent isEnd =>
          rw [Point.delivering, Option.toList_some, List.singleton_append, List.cons.injEq]
            at hloops
          rcases hloops with ⟨rfl, -⟩
          have hcode : (component generator initial).resume st.views st.state (.sent false) =
              (st.state, .goto .generate) := by
            change st.state.sent false = _
            rw [sent, hrun]
            rfl
          rw [hcode] at hstep
          exact ⟨_, .single hstep, rfl, rfl, rfl⟩

/-- With demand left, one more event is delivered when the calls of the
    subscriber return. -/
theorem deliver_next (h : Inv st) (hcancel : cancelCalled st.log = false) (hno : NoEnd st.log)
    (hpos : 0 < (outstanding st.log).balance) :
    ∃ st', Open.Later subscriptionCheck Returning st st' ∧
      st'.log = .out (.onNext (generator st.state.state).1) :: st.log := by
  have hrun : st.state.hasEnded = false := by
    rw [← Bool.not_eq_true]
    intro hended
    rcases h.made.cause hended with hcancelled | ⟨e, he, hend⟩
    · exact absurd (hcancel.symm.trans hcancelled) Bool.false_ne_true
    · exact absurd ((hno e he).symm.trans hend) Bool.false_ne_true
  have hbalance := h.made.balance hrun hno
  -- the loop goes round once
  have hround : ∀ mid : Open (component generator initial), mid.turn = .run .generate →
      mid.state = st.state → mid.log = st.log →
      ∃ st', Open.Step subscriptionCheck Returning mid st' ∧
        st'.log = .out (.onNext (generator st.state.state).1) :: st.log := by
    intro mid hmid hstate hlog
    refine ⟨_, .run mid .generate hmid trivial, ?_⟩
    change (Open.perform subscriptionCheck mid (mid.state.generate generator)).log = _
    have hmore : st.state.requested.hasRequests = true :=
      (RequestBalance.hasRequests_iff _).mpr (hbalance ▸ hpos)
    rcases RequestBalance.remove_isSome _ (hbalance ▸ hpos) with ⟨b, hb⟩
    rw [GeneratingStream.generate, hstate, if_pos hmore]
    simp only [hb]
    exact congrArg _ hlog
  cases h.phase with
  | ended hasEnded turn loops => exact absurd (hrun.symm.trans hasEnded) Bool.false_ne_true
  | idle hasEnded turn loops generating noEnd served =>
      have hmore := (RequestBalance.hasRequests_iff _).mpr (hbalance ▸ hpos)
      exact absurd (served.symm.trans hmore) Bool.false_ne_true
  | looping hasEnded turn loops generating noEnd =>
      rcases hround st turn rfl rfl with ⟨st', hstep, hlog⟩
      exact ⟨st', .single hstep, hlog⟩
  | delivering isEnd hasEnded turn loops generating more last =>
      have hmore : isEnd = false := by
        rw [← Bool.not_eq_true]
        intro hend
        rcases last hend with ⟨e, he, hend'⟩
        exact absurd ((hno e he).symm.trans hend') Bool.false_ne_true
      rw [hmore] at loops
      rcases return_to_loop turn hasEnded h.waiting loops with ⟨mid, hlater, hturn, hstate, hlog⟩
      rcases hround mid hturn hstate hlog with ⟨st', hstep, hlog'⟩
      exact ⟨st', hlater.tail hstep, hlog'⟩

/-- What was delivered includes the first `k` events when there are as many,
    or an end. -/
theorem includes_of_made {s : GeneratingStream S} {log : Log T Empty NoParts}
    (h : Made generator initial s log) (k : Nat)
    (hk : k ≤ (received log).length ∨ ∃ e ∈ received log, e.isEnd = true) :
    events generator k initial <+: received log := by
  by_cases hle : k ≤ (received log).length
  · rw [h.events]
    exact events_prefix_of_le generator k _ initial hle
  · rcases hk.resolve_left hle with ⟨e, he, hend⟩
    rw [h.events] at he
    have heq := events_eq_of_isEnd generator _ k initial e he hend (by omega)
    exact ⟨[], by rw [List.append_nil, heq, ← h.events]⟩

/-- When the calls of the subscriber return, everything that was asked for is
    delivered. -/
theorem deliver_all (h : Open.Reach subscriptionCheck SubscriberRules st)
    (hcancel : cancelCalled st.log = false) (k : Nat) (hk : Demanded st.log k) :
    ∃ st', Open.Later subscriptionCheck Returning st st' ∧
      events generator k initial <+: received st'.log := by
  induction hmissing : k - (received st.log).length generalizing st with
  | zero => exact ⟨st, .refl, includes_of_made (inv_reach st h).made k (Or.inl (by omega))⟩
  | succ n ih =>
      have hinv := inv_reach st h
      by_cases hno : NoEnd st.log
      · have hpos : 0 < (outstanding st.log).balance := by
          have hmax : 0 < kMax := by decide
          have hvalues := values_eq_length _ hno
          rcases hinv.made.account with heq | heq
          · omega
          · rcases hk with hk | hk
            · omega
            · omega
        rcases deliver_next hinv hcancel hno hpos with ⟨next, hlater, hlog⟩
        have hlength : (received next.log).length = (received st.log).length + 1 := by
          rw [hlog, received_cons, List.length_append]
          rfl
        rcases ih (reach_returning h hlater) (hlog ▸ hcancel) (hlog ▸ hk.deliver _) (by omega)
          with ⟨st', hlater', hbegin'⟩
        exact ⟨st', hlater.trans hlater', hbegin'⟩
      · simp only [NoEnd, not_forall, Bool.not_eq_false] at hno
        rcases hno with ⟨e, he, hend⟩
        exact ⟨st, .refl, includes_of_made hinv.made k (Or.inr ⟨e, he, hend⟩)⟩

/-- At rest there is nothing to return from. -/
theorem later_at_rest (hturn : st.turn = .outside) (hstack : st.stack = [])
    (hlater : Open.Later subscriptionCheck Returning st st') : st' = st := by
  rcases hlater.cases_head with heq | ⟨next, hstep, -⟩
  · exact heq.symm
  · cases hstep with
    | call c turn open_ ok => exact ok.elim
    | said p i o turn kind ok => exact ok.elim
    | reply who k rest turn top ok =>
        rw [hstack] at top
        cases top
    | view p v turn ok => exact ok.elim
    | run k turn ok =>
        rw [hturn] at turn
        cases turn

end Progress

/-- What holds in every state of a run. The stream has delivered the first
    events of its generator, and goes on until all that were asked for are
    delivered, unless it is cancelled. -/
structure DeliversPrefix {generator : S → StatusOr T × S} {initial : S}
    (st : Open (component generator initial)) : Prop where
  running : st.turn.isFailed = false
  /-- The events are the first that the generator makes, up to its end. -/
  exact : received st.log = events generator (received st.log).length initial
  /-- The generator was run once for each of them. -/
  generated : st.state.state = after generator (received st.log).length initial
  demanded : Demanded st.log (received st.log).length
  /-- Whatever is asked for is delivered while the subscriber returns. -/
  complete : cancelCalled st.log = false → ∀ k, Demanded st.log k →
    ∃ st', Open.Later subscriptionCheck Returning st st' ∧
      events generator k initial <+: received st'.log
  /-- With a finite demand these are as many events as were asked for. -/
  finite : cancelCalled st.log = false → st.turn = .outside → st.stack = [] →
    (outstanding st.log).balance ≠ kMax →
    received st.log = events generator (demand st.log) initial
  /-- With an infinite demand they are all up to an end. -/
  infinite : cancelCalled st.log = false → st.turn = .outside → st.stack = [] →
    (outstanding st.log).balance = kMax → ∃ e ∈ received st.log, e.isEnd = true
  /-- Nothing is delivered after a cancellation. -/
  cut : ∀ new old, st.log = new ++ .call .cancel :: old → received st.log = received old
  /-- `Generate` is not called while a call of it is under way. -/
  single : active st ≤ 1
  /-- The stream is deleted once, after its end or when it is cancelled. -/
  deleted : destroyed st.log = if st.state.hasEnded then 1 else 0
  cause : st.state.hasEnded = true →
    cancelCalled st.log = true ∨ ∃ e ∈ received st.log, e.isEnd = true
  cancelled : cancelCalled st.log = true → st.state.hasEnded = true
  ended : st.turn = .outside → st.stack = [] → (∃ e ∈ received st.log, e.isEnd = true) →
    st.state.hasEnded = true

end GeneratingStream

end RxCppUniq
