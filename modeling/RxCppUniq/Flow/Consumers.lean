import RxCppUniq.Flow.PipelineLaws
import RxCppUniq.Reactive.Single

/-!
# Consumers

The subscribers at the end of a pipeline: `Subscriber::MakeWithFlowControl`,
which asks for one event at a time and hands each to a function, and
`Single::Subscribe`, which asks for one event and cancels the rest. Both are
components of which the pipeline is a part, and the function is their
environment. Such a consumer stands for a machine that hands out some events, one
when the function has returned from the one before, and then returns.

## Main definitions

* `FlowControlSubscriber.component`: `Subscriber::MakeWithFlowControl`.
* `emitter`: The machine that hands out some events.
* `Listing.result`: What the listener of a `Single` receives.
* `SingleSubscriber.Concluded`: What has become of the stream then.

## Theorems

* `FlowControlSubscriber.simulation`: The events of the listing are handed out.
* `SingleSubscriber.simulation`: The result is.
* `Emitted.of_simulation`: What stands for the machine hands out its events.
* `SingleSubscriber.concluded`: The stream of a `Single` has ended.
-/

namespace RxCppUniq

open Theory Theory.Machine Theory.Nest

open GeneratingStream (NoParts)

/-- `Subscriber::MakeWithFlowControl`. -/
structure FlowControlSubscriber where

namespace FlowControlSubscriber

/-- Where a lambda waits for a call to return. -/
inductive Point where
  /-- Nothing is left to do. -/
  | done
  /-- After the function was called with an event of the stream with number `p`. -/
  | handled (p : Nat) (isEnd : Bool)

variable {T : Type}

abbrev Result (T : Type) := FlowControlSubscriber × Act Call (Signal T) Unit Point

def onSubscribe (s : FlowControlSubscriber) (p : Nat) : Result T :=
  (s, .ask p (.request 1) .done)

def onNext (s : FlowControlSubscriber) (p : Nat) (event : StatusOr T) : Result T :=
  (s, .out (.onNext event) (.handled p event.isEnd))

/-- The rest of the lambda after the function was called. -/
def handled (s : FlowControlSubscriber) (p : Nat) (isEnd : Bool) : Result T :=
  if !isEnd then (s, .ask p (.request 1) .done) else (s, .ret)

/-- The lambdas. The function cannot call the stream. -/
abbrev component (T : Type) : Operator T Unit (fun _ => T) where
  State := FlowControlSubscriber
  Point := Point
  start := {}
  call _ s
    | .subscribe => (s, .make () .subscribe .done)
    | .request _ => (s, .ret)
    | .cancel => (s, .ret)
  said _ s p _
    | .onSubscribe => s.onSubscribe p
    | .onNext event => s.onNext p event
    | .destroy => (s, .ret)
  resume _ s
    | .done => (s, .ret)
    | .handled p isEnd => s.handled p isEnd
  look _ := false

end FlowControlSubscriber

section Emitter

variable {T : Type}

/-- The next event is handed out. -/
def emit : List (StatusOr T) → List (StatusOr T) × Act Call (Signal T) Empty Unit
  | [] => ([], .ret)
  | e :: events => (events, .out (.onNext e) ())

/-- Some events are handed out, one when the handler of the one before has
    returned. -/
abbrev emitter (events : List (StatusOr T)) : Operator T Empty NoParts where
  State := List (StatusOr T)
  Point := Unit
  start := events
  call _ events
    | .subscribe => emit events
    | .request _ => (events, .ret)
    | .cancel => (events, .ret)
  said _ _ _ i := nomatch i
  resume _ events _ := emit events
  look _ := false

/-- The handler only subscribes. It may be that there is no return from an
    error if `broken` holds. -/
def handlerProtocol (T : Type) (broken : Prop) : Protocol Call (Signal T) where
  Stage := StreamStage
  start := .fresh
  allow q
    | .subscribe => q = .fresh
    | .request _ => False
    | .cancel => False
  after q
    | .onSubscribe => .live
    | .onNext e => if e.isDone then .done else if e.isEnd then .failed else .live
    | .destroy => q
  broken q := q = .failed ∧ broken

end Emitter

section Requesting

variable {T : Type} {M : Operator T Unit (fun _ => T)} {d : M.Point} {A : Operator T Empty NoParts}
  {x : Listing T} {late broken : Prop}
  {S : Simulation subscriptionCheck (streamProtocol T late broken) A x.stream}

/-- A consumer asks for one event when it is subscribed. -/
structure Requesting (M : Operator T Unit (fun _ => T)) (d : M.Point) : Prop where
  subscribe : ∀ views s, M.call views s .subscribe = (s, .make () .subscribe d)
  onSubscribe : ∀ views s p, M.said views s p () .onSubscribe = (s, .ask p (.request 1) d)
  destroy : ∀ views s p, M.said views s p () .destroy = (s, .ret)
  done : ∀ views s, M.resume views s d = (s, .ret)

/-- What is on the stack while the stream is being asked. -/
def asking (d : M.Point) : List (Frame M.Point) :=
  [.own d, .part 0, .own d, .env]

/-- The stream hands out an event. -/
structure Handing (S : Simulation subscriptionCheck (streamProtocol T late broken) A x.stream)
    (q : StreamStage) (isEnd : Bool) (b : GeneratingStream (List T))
    (parts : List (Part (fun _ : Unit => A))) : Prop where
  base : At (N := fun _ : Unit => A) (i := ()) S q b [.sent isEnd, .done] 0 parts
  running : b.hasEnded = false
  looping : b.generating = true
  served : b.requested.balance = 0

variable {st : Nest.State M (fun _ : Unit => A)} {b : GeneratingStream (List T)}
  {Inv : Nest.Result M (fun _ : Unit => A) → Prop}

theorem after_status (x : Listing T) :
    (streamProtocol T late broken).after .live (.onNext (.status x.ending x.notOk)) = x.last := by
  simp only [streamProtocol, StatusOr.isDone_status, StatusOr.isEnd_status, if_true, beq_iff_eq]
  rfl

/-- Whatever the stream was called for, it hands out the next event. -/
theorem event_leads {ks : List (A.Point × GeneratingStream.Point)} {r : Machine.Outcome A}
    {r' : Machine.Outcome x.stream}
    (hanswers : Answers (streamProtocol T late broken) S.Rel .live ks r r')
    (hks : ks.map Prod.snd = [.done])
    (hruns : ∀ v, Runs x.stream (b, .goto .generate) v → Runs x.stream r' v)
    (hlt : 0 < st.parts.length) (hrunning : b.hasEnded = false) (hlooping : b.generating = true)
    (hone : b.requested.balance = 1)
    (hvalue : ∀ v vs b' st', b.state = v :: vs → b'.state = vs →
      Handing S .live false b' st'.parts →
      st'.state = st.state → st'.stack = .part 0 :: st.stack →
      Leads subscriptionCheck Inv (perform subscriptionCheck st'
        (M.said st'.views st'.state 0 () (.onNext (.value v)))))
    (hstatus : ∀ b' st', b.state = [] → Handing S x.last true b' st'.parts →
      st'.state = st.state → st'.stack = .part 0 :: st.stack →
      Leads subscriptionCheck Inv (perform subscriptionCheck st'
        (M.said st'.views st'.state 0 () (.onNext (.status x.ending x.notOk))))) :
    Leads subscriptionCheck Inv (answer st 0 () (ks.map Prod.fst) r) := by
  have hmore : b.requested.hasRequests = true := by
    rw [RequestBalance.hasRequests_iff, hone]
    exact Nat.zero_lt_one
  rcases RequestBalance.remove_isSome b.requested (by omega) with ⟨c, hc⟩
  -- one event was asked for, and the next one has used this up
  have hserved : c.balance = 0 := by
    have hleft := RequestBalance.remove_of_lt _ _ 1 (by rw [hone, kMax]; omega) hc
    omega
  have hfail : (streamProtocol T late broken).broken .live →
      ∀ (st : Nest.State M (fun _ : Unit => A)) msg, Inv (st, .fail msg) :=
    fun hbroken => by cases hbroken.1
  cases hstate : b.state with
  | nil =>
      refine Leads.answer_out hanswers (hruns _ (Listing.runs_status hstate hmore hc)) hlt hfail
        fun st' hmoves hat => ?_
      rw [after_status, hks] at hat
      exact hstatus _ st' hstate ⟨hat, hrunning, hlooping, hserved⟩ hmoves.state hmoves.stack_eq
  | cons v vs =>
      refine Leads.answer_out hanswers (hruns _ (Listing.runs_value hstate hmore hc)) hlt hfail
        fun st' hmoves hat => ?_
      rw [hks] at hat
      exact hvalue v vs _ st' hstate rfl ⟨hat, hrunning, hlooping, hserved⟩ hmoves.state
        hmoves.stack_eq

/-- The consumer is subscribed, and has the first event at once. -/
theorem subscribe_leads (hM : Requesting M d) (hparts : st.parts = []) (hstack : st.stack = [])
    (hvalue : ∀ v vs b' st', x.values = v :: vs → b'.state = vs →
      Handing S .live false b' st'.parts → st'.state = st.state →
      st'.stack = .part 0 :: asking d →
      Leads subscriptionCheck Inv (perform subscriptionCheck st'
        (M.said st'.views st'.state 0 () (.onNext (.value v)))))
    (hstatus : ∀ b' st', x.values = [] → Handing S x.last true b' st'.parts →
      st'.state = st.state → st'.stack = .part 0 :: asking d →
      Leads subscriptionCheck Inv (perform subscriptionCheck st'
        (M.said st'.views st'.state 0 () (.onNext (.status x.ending x.notOk))))) :
    Leads subscriptionCheck Inv (Nest.call subscriptionCheck st .subscribe) := by
  have hcode : Nest.call subscriptionCheck st .subscribe =
      ({ st with
          parts := st.parts ++ [{ kind := (), state := A.start, waiting := [] }]
          stack := .own d :: .env :: st.stack
          log := .ask st.parts.length .subscribe :: .call .subscribe :: st.log },
        .goto (.ask st.parts.length .subscribe)) := by
    rw [Nest.call, hM.subscribe]
    rfl
  rw [hcode]
  have hnew := At.create (N := fun _ : Unit => A) (i := ()) S st.parts
  rw [hparts] at hnew ⊢
  refine Leads.ask_out hnew rfl rfl GeneratingStream.runs_subscribe
    (fun hbroken => absurd hbroken.1 (by simp only [streamProtocol, reduceCtorEq,
      not_false_eq_true])) fun st1 hmoves hat => ?_
  have hbelow := hmoves.stack_eq
  rw [hstack] at hbelow
  have hone : 1 ≤ kMax := by
    rw [kMax]
    omega
  have hallow : (streamProtocol T late broken).allow .live (.request 1) := by
    refine ⟨?_, Nat.le_refl 1, hone⟩
    simp only [ne_eq, reduceCtorEq, not_false_eq_true]
  -- it asks for one event, with which the loop begins
  change Leads subscriptionCheck Inv
    (perform subscriptionCheck st1 (M.said st1.views st1.state 0 () .onSubscribe))
  rw [hM.onSubscribe]
  refine Leads.ask (S := S) (i := ()) hat rfl (Leads.ask_go (S := S) (i := ()) hat hallow rfl ?_)
  intro ks r hls hanswers
  refine event_leads (b := ⟨false, x.values, RequestBalance.zero.add 1, true⟩) hanswers hls
    (fun v hv => GeneratingStream.runs_request rfl hv) hat.lt rfl rfl ?_ ?_ ?_
  · rw [RequestBalance.balance_add, RequestBalance.balance_zero]
    omega
  · intro v vs b' st' hvalues hleft hhanding hstate' hstack'
    exact hvalue v vs b' st' hvalues hleft hhanding (hstate'.trans hmoves.state)
      (hstack'.trans (congrArg (fun rest => .part 0 :: .own d :: rest) hbelow))
  · intro b' st' hvalues hhanding hstate' hstack'
    exact hstatus b' st' hvalues hhanding (hstate'.trans hmoves.state)
      (hstack'.trans (congrArg (fun rest => .part 0 :: .own d :: rest) hbelow))

/-- A call of the stream returns, and so does everything. -/
theorem own_ret (hM : Requesting M d) {rest : List (Frame M.Point)}
    (hstack : st.stack = .own d :: rest)
    (h : Leads subscriptionCheck Inv (back { st with stack := rest })) :
    Leads subscriptionCheck Inv (back st) := by
  refine Leads.own hstack ?_
  rw [hM.done]
  exact Leads.ret h

/-- The next event is asked for, which the loop hands out when it goes on. -/
theorem next_leads (hM : Requesting M d) {m : M.State} (hhanding : Handing S .live false b st.parts)
    (hstack : st.stack = .part 0 :: asking d)
    (hvalue : ∀ v vs b' st', b.state = v :: vs → b'.state = vs →
      Handing S .live false b' st'.parts →
      st'.state = m → st'.stack = .part 0 :: asking d →
      Leads subscriptionCheck Inv (perform subscriptionCheck st'
        (M.said st'.views st'.state 0 () (.onNext (.value v)))))
    (hstatus : ∀ b' st', b.state = [] → Handing S x.last true b' st'.parts →
      st'.state = m → st'.stack = .part 0 :: asking d →
      Leads subscriptionCheck Inv (perform subscriptionCheck st'
        (M.said st'.views st'.state 0 () (.onNext (.status x.ending x.notOk))))) :
    Leads subscriptionCheck Inv (perform subscriptionCheck st (m, .ask 0 (.request 1) d)) := by
  rcases hhanding with ⟨hbase, hrunning, hlooping, hserved⟩
  have hone : 1 ≤ kMax := by
    rw [kMax]
    omega
  have hallow : (streamProtocol T late broken).allow .live (.request 1) := by
    refine ⟨?_, Nat.le_refl 1, hone⟩
    simp only [ne_eq, reduceCtorEq, not_false_eq_true]
  have hgate : subscriptionCheck b.hasEnded (.request 1) = none := by
    rw [hrunning, subscriptionCheck_false]
  refine Leads.ask (S := S) (i := ()) hbase hgate ?_
  refine Leads.ask_ret (S := S) (i := ()) hbase hallow hgate (GeneratingStream.runs_busy 1 hlooping)
    (fun hbroken => by cases hbroken.1) fun st1 hmoves hat => ?_
  -- the request is made inside the OnNext, so it returns before the loop goes on
  refine own_ret hM (hmoves.stack_eq.trans (congrArg _ hstack)) ?_
  refine Leads.part_go (S := S) (i := ()) rfl hat fun ks r hls hanswers => ?_
  refine event_leads (b := { b with requested := b.requested.add 1 }) hanswers hls
    (fun v hv => GeneratingStream.runs_sent hrunning hv) hat.lt hrunning hlooping ?_ ?_ ?_
  · rw [RequestBalance.balance_add, hserved]
    omega
  · intro v vs b' st' hvalues hleft hhanding hstate' hstack'
    exact hvalue v vs b' st' hvalues hleft hhanding (hstate'.trans hmoves.state) hstack'
  · intro b' st' hvalues hhanding hstate' hstack'
    exact hstatus b' st' hvalues hhanding (hstate'.trans hmoves.state) hstack'

/-- The call in which the stream has handed out its subscription returns. -/
theorem leave (hM : Requesting M d) {q : StreamStage}
    (hbase : At (N := fun _ : Unit => A) (i := ()) S q b [.done] 0 st.parts)
    (hstack : st.stack = asking d)
    (hfail : (streamProtocol T late broken).broken q →
      ∀ (st : Nest.State M (fun _ : Unit => A)) msg, Inv (st, .fail msg))
    (hnext : ∀ st', st'.state = st.state → st'.stack = [] → st'.views 0 = b.hasEnded →
      Inv (st', .ret)) :
    Leads subscriptionCheck Inv (back st) := by
  refine own_ret hM hstack ?_
  refine Leads.part_ret (S := S) (i := ()) rfl hbase GeneratingStream.runs_done hfail
    fun st1 hmoves hat => ?_
  refine own_ret hM hmoves.stack_eq (Leads.env rfl (hnext _ hmoves.state rfl ?_))
  exact hat.view

/-- The handler of the last event returns. The stream destroys the consumer, and
    everything returns. -/
theorem finish_leads (hM : Requesting M d) {q : StreamStage}
    (hhanding : Handing S q true b st.parts)
    (hstack : st.stack = .part 0 :: asking d)
    (hfail : (streamProtocol T late broken).broken q →
      ∀ (st : Nest.State M (fun _ : Unit => A)) msg, Inv (st, .fail msg))
    (hnext : ∀ st', st'.state = st.state → st'.stack = [] → st'.views 0 = true →
      Inv (st', .ret)) :
    Leads subscriptionCheck Inv (back st) := by
  refine Leads.part_out (S := S) (i := ()) hstack hhanding.base
    (GeneratingStream.runs_last hhanding.running) hfail fun st1 hmoves hat => ?_
  change Leads subscriptionCheck Inv
    (perform subscriptionCheck st1 (M.said st1.views st1.state 0 () .destroy))
  rw [hM.destroy]
  refine Leads.ret ?_
  refine Leads.part_ret (S := S) (i := ()) (hmoves.stack_eq.trans hstack) hat
    GeneratingStream.runs_done hfail fun st2 hmoves' hat' => ?_
  refine leave hM hat' hmoves'.stack_eq hfail fun st' hstate' hstack' hended => ?_
  exact hnext st' (hstate'.trans (hmoves'.state.trans hmoves.state)) hstack' hended

/-- The stream is cancelled in the handler of a value. -/
theorem cancel_leads (hM : Requesting M d) {m : M.State}
    (hhanding : Handing S .live false b st.parts)
    (hstack : st.stack = .part 0 :: asking d)
    (hnext : ∀ st', st'.state = m → st'.stack = [] → st'.views 0 = true → Inv (st', .ret)) :
    Leads subscriptionCheck Inv (perform subscriptionCheck st (m, .ask 0 .cancel d)) := by
  rcases hhanding with ⟨hbase, hrunning, -, -⟩
  have hfail : (streamProtocol T late broken).broken .live →
      ∀ (st : Nest.State M (fun _ : Unit => A)) msg, Inv (st, .fail msg) :=
    fun hbroken => by cases hbroken.1
  have hgate : subscriptionCheck b.hasEnded .cancel = none := by
    rw [hrunning, subscriptionCheck_false]
  refine Leads.ask (S := S) (i := ()) hbase hgate ?_
  refine Leads.ask_out (S := S) (i := ()) hbase (Or.inl rfl) hgate
      GeneratingStream.runs_cancel hfail
    fun st1 hmoves hat => ?_
  rw [hM.destroy]
  refine Leads.ret ?_
  -- `Cancel` returns, then the loop finds that the stream is not there any more
  refine Leads.part_ret (S := S) (i := ()) hmoves.stack_eq hat GeneratingStream.runs_done hfail
    fun st2 hmoves' hat' => ?_
  refine own_ret hM (hmoves'.stack_eq.trans (congrArg _ hstack)) ?_
  refine Leads.part_ret (S := S) (i := ()) rfl hat' (GeneratingStream.runs_ended false rfl) hfail
    fun st3 hmoves2 hat2 => ?_
  refine leave hM hat2 hmoves2.stack_eq hfail fun st' hstate' hstack' hended => ?_
  exact hnext st' (hstate'.trans (hmoves2.state.trans (hmoves'.state.trans hmoves.state))) hstack'
    hended

end Requesting

namespace Listing

variable {T : Type}

theorem events_cons {x : Listing T} {v : T} {vs : List T} (h : x.values = v :: vs) :
    x.events = .value v :: (x.rest vs).events := by
  rw [events, h]
  rfl

theorem events_nil {x : Listing T} (h : x.values = []) :
    x.events = [.status x.ending x.notOk] := by
  rw [events, h]
  rfl

/-- The result of a `Single`: the first value or error, or an error if there is
    neither. -/
def result (x : Listing T) : StatusOr T :=
  match x.values with
  | v :: _ => .value v
  | [] =>
      if x.ending.code = .outOfRange then
        .status SingleSubscriber.unexpectedEnd SingleSubscriber.unexpectedEnd_notOk
      else .status x.ending x.notOk

end Listing

/-- A consumer with the pipeline it consumes. -/
abbrev consumer {T : Type} (M : Operator T Unit (fun _ => T)) (A : Operator T Empty NoParts) :
    Operator T Empty NoParts :=
  nest subscriptionCheck M (fun _ : Unit => A)

section Consumers

variable {T : Type} {A : Operator T Empty NoParts} {x : Listing T} {late broken : Prop}
  (S : Simulation subscriptionCheck (streamProtocol T late broken) A x.stream)

abbrev ConsumerPoint (M : Operator T Unit (fun _ => T)) :=
  Nest.Point Call Unit M.Point (fun _ : Unit => Signal T)

namespace FlowControlSubscriber

theorem requesting : Requesting (component T) Point.done where
  subscribe _ _ := rfl
  onSubscribe _ _ _ := rfl
  destroy _ _ _ := rfl
  done _ _ := rfl

/-- What is on the stack while the function handles an event. -/
def handling (isEnd : Bool) : List (Frame (component T).Point) :=
  .own (Point.handled 0 isEnd) :: .part 0 :: asking (M := component T) Point.done

/-- The consumer has got as far as the events that are left. -/
inductive Tracks : StreamStage → Nest.State (component T) (fun _ : Unit => A) →
    List (StatusOr T) → List (ConsumerPoint (component T) × Unit) → Prop where
  | fresh (st) (hparts : st.parts = []) (hstack : st.stack = []) : Tracks .fresh st x.events []
  /-- The function handles a value. -/
  | value (b : GeneratingStream (List T)) (st) (hhanding : Handing S .live false b st.parts)
      (hstack : st.stack = handling false) :
      Tracks .live st (x.rest b.state).events [(.reply, ())]
  /-- It handles the end. -/
  | status (b : GeneratingStream (List T)) (st) (hhanding : Handing S x.last true b st.parts)
      (hstack : st.stack = handling true) :
      Tracks x.last st [] [(.reply, ())]
  | finished (q : StreamStage) (st) (hq : q ≠ .fresh) (hstack : st.stack = []) : Tracks q st [] []

variable {S} {q : StreamStage} {st : Nest.State (component T) (fun _ : Unit => A)}
  {events : List (StatusOr T)} {ks : List (ConsumerPoint (component T) × Unit)}

/-- The consumer goes on to where it has done the same. -/
def Goes (S : Simulation subscriptionCheck (streamProtocol T late broken) A x.stream)
    (q : StreamStage) (ks : List (ConsumerPoint (component T) × Unit))
    (r : Machine.Outcome (emitter x.events))
    (v : Machine.Outcome (consumer (component T) A)) : Prop :=
  ∃ v', Runs (emitter x.events) r v' ∧
    Match (handlerProtocol T broken) (A := consumer (component T) A) (B := emitter x.events)
      (Tracks S) q ks v v'

/-- A value is handed to the function. -/
theorem value_goes (v : T) {vs : List T}
    {b : GeneratingStream (List T)} {st : Nest.State (component T) (fun _ : Unit => A)}
    (hleft : b.state = vs) (hhanding : Handing S .live false b st.parts)
    (hstack : st.stack = .part 0 :: asking (M := component T) Point.done) :
    Leads subscriptionCheck (Goes S q [] (emit (.value v :: (x.rest vs).events)))
      (perform subscriptionCheck st ((component T).said st.views st.state 0 ()
          (.onNext (.value v)))) := by
  subst hleft
  refine .stop rfl ⟨_, Runs.stop (A := emitter x.events) _ rfl, .out _ _ _ _ _ ?_⟩
  exact .value b _ hhanding (congrArg _ hstack)

/-- The end is. -/
theorem status_goes {b : GeneratingStream (List T)}
    {st : Nest.State (component T) (fun _ : Unit => A)}
    (hhanding : Handing S x.last true b st.parts)
    (hstack : st.stack = .part 0 :: asking (M := component T) Point.done) :
    Leads subscriptionCheck (Goes S q [] (emit [.status x.ending x.notOk]))
      (perform subscriptionCheck st
        ((component T).said st.views st.state 0 () (.onNext (.status x.ending x.notOk)))) := by
  refine .stop rfl ⟨_, Runs.stop (A := emitter x.events) _ rfl, .out _ _ _ _ _ ?_⟩
  have hend : (.status x.ending x.notOk : StatusOr T).isEnd = true := StatusOr.isEnd_status _ _
  have hlast : (handlerProtocol T broken).after q (.onNext (.status x.ending x.notOk)) = x.last :=
    @after_status T late broken x
  rw [hlast]
  refine .status b _ hhanding ?_
  rw [hend]
  exact congrArg _ hstack

theorem Tracks.subscribe (hparts : st.parts = []) (hstack : st.stack = []) :
    Leads subscriptionCheck (Goes S .fresh [] (emit x.events))
      (Nest.call subscriptionCheck st .subscribe) := by
  refine subscribe_leads (S := S) requesting hparts hstack ?_ ?_
  · intro v vs b' st' hvalues hleft hhanding _ hstack'
    rw [Listing.events_cons hvalues]
    exact value_goes v hleft hhanding hstack'
  · intro b' st' hvalues hhanding _ hstack'
    rw [Listing.events_nil hvalues]
    exact status_goes hhanding hstack'

/-- The function returns. -/
theorem Tracks.resume {k : ConsumerPoint (component T)} {l : Unit}
    (h : Tracks S q st events ((k, l) :: ks)) :
    k = .reply ∧ Leads subscriptionCheck (Goes S q ks (emit events)) (back st) := by
  generalize hks : (k, l) :: ks = ks' at h
  cases h with
  | fresh _ hparts hstack => cases hks
  | finished _ _ hq hstack => cases hks
  | value b _ hhanding hstack =>
      rcases List.cons.inj hks with ⟨hpoint, rfl⟩
      rcases Prod.mk.inj hpoint with ⟨rfl, rfl⟩
      refine ⟨rfl, Leads.own hstack ?_⟩
      change Leads subscriptionCheck _ (perform subscriptionCheck
        { st with stack := .part 0 :: asking (M := component T) Point.done }
        (st.state, .ask 0 (.request 1) Point.done))
      refine next_leads (S := S) requesting hhanding rfl ?_ ?_
      · intro v vs b' st' hvalues hleft hhanding' _ hstack'
        rw [hvalues]
        exact value_goes v hleft hhanding' hstack'
      · intro b' st' hvalues hhanding' _ hstack'
        rw [hvalues]
        exact status_goes hhanding' hstack'
  | status b _ hhanding hstack =>
      rcases List.cons.inj hks with ⟨hpoint, rfl⟩
      rcases Prod.mk.inj hpoint with ⟨rfl, rfl⟩
      refine ⟨rfl, Leads.own hstack (Leads.ret ?_)⟩
      have hruns : Runs (emitter x.events) (emit []) ([], .ret) := .stop _ rfl
      refine finish_leads (S := S) requesting hhanding rfl
        (fun hbroken st msg => ⟨_, hruns, .fail _ _ _ hbroken⟩)
        fun st' _ hstack' _ => ⟨_, hruns, .ret _ _ (.finished _ _ ?_ hstack')⟩
      rw [Listing.last]
      split <;> simp only [ne_eq, reduceCtorEq, not_false_eq_true]

/-- The events of the listing are handed to the function. -/
def simulation (S : Simulation subscriptionCheck (streamProtocol T late broken) A x.stream) :
    Simulation subscriptionCheck (handlerProtocol T broken) (consumer (component T) A)
      (emitter x.events) where
  Rel := Tracks S
  start := .fresh _ rfl rfl
  look _ _ _ _ _ := rfl
  call := by
    intro q st b ks c h hallow hgate
    refine Leads.answers ?_
    cases c with
    | request n => exact hallow.elim
    | cancel => exact hallow.elim
    | subscribe =>
        have hq : q = .fresh := hallow
        subst hq
        generalize hstage : StreamStage.fresh = q' at h
        cases h with
        | fresh _ hparts hstack => exact Tracks.subscribe hparts hstack
        | value => cases hstage
        | status =>
            rw [Listing.last] at hstage
            split at hstage <;> cases hstage
        | finished _ _ hq => exact absurd hstage.symm hq
  resume := by
    intro q st b k l ks h
    rcases h.resume with ⟨rfl, hleads⟩
    exact Leads.answers hleads

end FlowControlSubscriber

namespace SingleSubscriber

theorem requesting : Requesting (component T) Point.done where
  subscribe _ _ := rfl
  onSubscribe _ _ _ := rfl
  destroy _ _ _ := rfl
  done _ _ := rfl

/-- What is on the stack while the listener is called. -/
def listening (k : Point) : List (Frame (component T).Point) :=
  .own k :: .part 0 :: asking (M := component T) Point.done

/-- The consumer has got as far as the events that are left. -/
inductive Tracks : StreamStage → Nest.State (component T) (fun _ : Unit => A) →
    List (StatusOr T) → List (ConsumerPoint (component T) × Unit) → Prop where
  | fresh (st) (hstate : st.state = {}) (hparts : st.parts = []) (hstack : st.stack = []) :
      Tracks .fresh st [x.result] []
  /-- The listener has the first value, and the stream will be cancelled. -/
  | value (b : GeneratingStream (List T)) (st) (hhanding : Handing S .live false b st.parts)
      (hstack : st.stack = listening (.listened 0 false)) : Tracks .live st [] [(.reply, ())]
  /-- It has an error. -/
  | status (k : Point) (b : GeneratingStream (List T)) (q : StreamStage) (st)
      (hk : k = .done ∨ k = .listened 0 true) (hq : q ≠ .fresh)
      (hfailed : x.last = .failed → q = .failed) (hhanding : Handing S x.last true b st.parts)
      (hstack : st.stack = listening k) : Tracks q st [] [(.reply, ())]
  /-- Everything has returned, and the stream has ended. -/
  | finished (q : StreamStage) (st) (hq : q ≠ .fresh) (hstack : st.stack = [])
      (hended : st.views 0 = true) : Tracks q st [] []

variable {S} {q : StreamStage} {st : Nest.State (component T) (fun _ : Unit => A)}
  {events : List (StatusOr T)} {ks : List (ConsumerPoint (component T) × Unit)}

/-- The consumer goes on to where it has done the same. -/
def Goes (S : Simulation subscriptionCheck (streamProtocol T late broken) A x.stream)
    (q : StreamStage) (ks : List (ConsumerPoint (component T) × Unit))
    (r : Machine.Outcome (emitter [x.result])) (v : Machine.Outcome (consumer (component T) A)) :
    Prop :=
  ∃ v', Runs (emitter [x.result]) r v' ∧
    Match (handlerProtocol T broken) (A := consumer (component T) A) (B := emitter [x.result])
      (Tracks S) q ks v v'

/-- `Done` is not what a listener waits for. -/
theorem Tracks.subscribe (hstate : st.state = {}) (hparts : st.parts = [])
    (hstack : st.stack = []) :
    Leads subscriptionCheck (Goes S .fresh [] (emit [x.result]))
      (Nest.call subscriptionCheck st .subscribe) := by
  have hne : StreamStage.failed ≠ .fresh := by simp only [ne_eq, reduceCtorEq, not_false_eq_true]
  refine subscribe_leads (S := S) requesting hparts hstack ?_ ?_
  · intro v vs b' st' hvalues _ hhanding _ hstack'
    rw [Listing.result, hvalues]
    refine .stop rfl ⟨_, Runs.stop (A := emitter [x.result]) _ rfl, .out _ _ _ _ _ ?_⟩
    exact .value b' _ hhanding (congrArg _ hstack')
  · intro b' st' hvalues hhanding hstate' hstack'
    rw [Listing.result, hvalues]
    have hcalled : st'.state = {} := hstate'.trans hstate
    by_cases hdone : x.ending.code = .outOfRange
    · have hisDone : (.status x.ending x.notOk : StatusOr T).isDone = true := by
        rw [StatusOr.isDone_status, hdone]
        rfl
      have hcode : (component T).said st'.views st'.state 0 ()
            (.onNext (.status x.ending x.notOk)) =
          ({ called := true }, .out (.onNext (.status unexpectedEnd unexpectedEnd_notOk))
              .done) := by
        change onNext st'.state 0 (.status x.ending x.notOk) = _
        rw [onNext, if_pos hisDone, hcalled]
        rfl
      rw [hcode]
      simp only [if_pos hdone]
      refine .stop rfl ⟨_, Runs.stop (A := emitter [x.result]) _ rfl, .out _ _ _ _ _ ?_⟩
      refine .status .done b' .failed _ (Or.inl rfl) hne (fun _ => rfl) hhanding ?_
      exact congrArg _ hstack'
    · have hisDone : (.status x.ending x.notOk : StatusOr T).isDone = false := by
        rw [StatusOr.isDone_status, beq_eq_false_iff_ne]
        exact hdone
      have hcode : (component T).said st'.views st'.state 0 ()
            (.onNext (.status x.ending x.notOk)) =
          ({ called := true }, .out (.onNext (.status x.ending x.notOk)) (.listened 0 true)) := by
        change onNext st'.state 0 (.status x.ending x.notOk) = _
        rw [onNext, hisDone, StatusOr.isEnd_status]
        rfl
      rw [hcode]
      simp only [if_neg hdone]
      refine .stop rfl ⟨_, Runs.stop (A := emitter [x.result]) _ rfl, .out _ _ _ _ _ ?_⟩
      have hlast : (handlerProtocol T broken).after .fresh (.onNext (.status x.ending x.notOk)) =
        x.last := @after_status T late broken x
      rw [hlast]
      refine .status (.listened 0 true) b' _ _ (Or.inr rfl) ?_ id hhanding (congrArg _ hstack')
      rw [Listing.last, if_neg hdone]
      exact hne

/-- The listener returns. -/
theorem Tracks.resume {k : ConsumerPoint (component T)} {l : Unit}
    (h : Tracks S q st events ((k, l) :: ks)) :
    k = .reply ∧ Leads subscriptionCheck (Goes S q ks (emit events)) (back st) := by
  have hruns : Runs (emitter [x.result]) (emit []) ([], .ret) := .stop _ rfl
  generalize hks : (k, l) :: ks = ks' at h
  cases h with
  | fresh _ hstate hparts hstack => cases hks
  | finished _ _ hq hstack _ => cases hks
  | value b _ hhanding hstack =>
      rcases List.cons.inj hks with ⟨hpoint, rfl⟩
      rcases Prod.mk.inj hpoint with ⟨rfl, rfl⟩
      refine ⟨rfl, Leads.own hstack ?_⟩
      have hview : st.views 0 = b.hasEnded := hhanding.base.view
      have hcode : (component T).resume st.views st.state (.listened 0 false) =
          (st.state, .ask 0 .cancel .done) := by
        change st.state.listened st.views 0 false = _
        rw [listened, hview, hhanding.running]
        rfl
      change Leads subscriptionCheck _ (perform subscriptionCheck
        { st with stack := .part 0 :: asking (M := component T) Point.done }
        ((component T).resume st.views st.state (.listened 0 false)))
      rw [hcode]
      refine cancel_leads (S := S) requesting hhanding rfl
        fun st' _ hstack' hended => ⟨_, hruns, .ret _ _ (.finished _ _ ?_ hstack' hended)⟩
      simp only [ne_eq, reduceCtorEq, not_false_eq_true]
  | status k b _ _ hk hq hfailed hhanding hstack =>
      rcases List.cons.inj hks with ⟨hpoint, rfl⟩
      rcases Prod.mk.inj hpoint with ⟨rfl, rfl⟩
      refine ⟨rfl, Leads.own hstack ?_⟩
      have hcode : (component T).resume st.views st.state k = (st.state, .ret) := by
        rcases hk with rfl | rfl <;> rfl
      change Leads subscriptionCheck _ (perform subscriptionCheck
        { st with stack := .part 0 :: asking (M := component T) Point.done }
        ((component T).resume st.views st.state k))
      rw [hcode]
      refine Leads.ret (finish_leads (S := S) requesting hhanding rfl
        (fun hbroken st msg => ⟨_, hruns, .fail _ _ _ ⟨hfailed hbroken.1, hbroken.2⟩⟩)
        fun st' _ hstack' hended => ⟨_, hruns, .ret _ _ (.finished _ _ hq hstack' hended)⟩)

/-- The listener has the result of the listing. -/
def simulation (S : Simulation subscriptionCheck (streamProtocol T late broken) A x.stream) :
    Simulation subscriptionCheck (handlerProtocol T broken) (consumer (component T) A)
      (emitter [x.result]) where
  Rel := Tracks S
  start := .fresh _ rfl rfl rfl
  look _ _ _ _ _ := rfl
  call := by
    intro q st b ks c h hallow hgate
    refine Leads.answers ?_
    cases c with
    | request n => exact hallow.elim
    | cancel => exact hallow.elim
    | subscribe =>
        have hq : q = .fresh := hallow
        subst hq
        generalize hstage : StreamStage.fresh = q' at h
        cases h with
        | fresh _ hstate hparts hstack => exact Tracks.subscribe hstate hparts hstack
        | value => cases hstage
        | status _ _ _ _ _ hq => exact absurd hstage.symm hq
        | finished _ _ hq => exact absurd hstage.symm hq
  resume := by
    intro q st b k l ks h
    rcases h.resume with ⟨rfl, hleads⟩
    exact Leads.answers hleads

end SingleSubscriber

end Consumers

section Emitted

variable {T : Type} {A : Operator T Empty NoParts} {events : List (StatusOr T)} {broken : Prop}

/-- The handler subscribes once. -/
def Handling (log : Log T Empty NoParts) : Call → Prop
  | .subscribe => log.isEmpty = true
  | .request _ => False
  | .cancel => False

instance (log : Log T Empty NoParts) (c : Call) : Decidable (Handling log c) :=
  match c with
  | .subscribe => inferInstanceAs (Decidable (_ = _))
  | .request _ => inferInstanceAs (Decidable False)
  | .cancel => inferInstanceAs (Decidable False)

theorem allow_of_handling (log : Log T Empty NoParts) (c : Call) (h : Handling log c) :
    (handlerProtocol T broken).allow ((handlerProtocol T broken).stage log) c := by
  cases c with
  | request n => exact h.elim
  | cancel => exact h.elim
  | subscribe =>
      rw [List.isEmpty_iff.mp h]
      rfl

/-- In every state of a run of a consumer: the handler has the first events, one
    at a time, and all of them when it has returned from each. -/
structure Emitted (events : List (StatusOr T)) (broken : Prop) (st : Open A) : Prop where
  exact : st.turn = .outside → received st.log = events.take (received st.log).length
  single : st.turn = .outside → st.stack.length ≤ 1
  complete : st.turn = .outside → st.stack = [] → st.log ≠ [] → received st.log = events
  failed : st.turn.isFailed = true → broken
  settles : ∃ st', Open.Later subscriptionCheck Returns st st' ∧
    (st'.turn = .outside ∧ st'.stack = [] ∨ st'.turn.isFailed = true ∧ broken)

/-- Where a run of the machine that hands out the events is. -/
structure Emitting (events : List (StatusOr T)) (st : Open (emitter events)) : Prop where
  turn : st.turn = .outside
  handed : received st.log ++ st.state = events
  single : st.stack.length ≤ 1
  finished : st.stack = [] → st.log ≠ [] → st.state = []

theorem emitting_emit (st : Open (emitter events)) (hhanded : received st.log ++ st.state = events)
    (hstack : st.stack = []) :
    Emitting events (Open.perform subscriptionCheck st (emit st.state)) := by
  cases hstate : st.state with
  | nil =>
      refine ⟨rfl, ?_, ?_, fun _ _ => rfl⟩
      · rw [← hhanded, hstate]
        rfl
      · rw [emit, Open.perform_ret, hstack]
        exact Nat.zero_le 1
  | cons e rest =>
      refine ⟨rfl, ?_, ?_, fun hnil => ?_⟩
      · rw [← hhanded, hstate, emit, Open.perform_out, received_cons, List.append_assoc]
        rfl
      · rw [emit, Open.perform_out, hstack]
        exact Nat.le_refl 1
      · rw [emit, Open.perform_out] at hnil
        cases hnil

theorem emitting {st : Open (emitter events)}
    (h : Open.Reach subscriptionCheck (LogRules Handling) st) : Emitting events st := by
  induction h with
  | init => exact ⟨rfl, rfl, Nat.zero_le 1, fun _ hlog => absurd rfl hlog⟩
  | step st st' hreach hstep ih =>
      rcases ih with ⟨hturn, hhanded, hsingle, hfinished⟩
      cases hstep with
      | said p i o turn kind ok => cases i
      | view p v turn ok => exact ok.elim
      | run k turn ok => cases turn.symm.trans hturn
      | reply who k rest turn top ok =>
          have hrest : rest = [] := by
            rw [top, List.length_cons] at hsingle
            exact List.eq_nil_of_length_eq_zero (by omega)
          subst hrest
          exact emitting_emit { st with stack := [] } hhanded rfl
      | call c turn open_ ok =>
          cases c with
          | request n => exact ok.elim
          | cancel => exact ok.elim
          | subscribe =>
              have hnone : st.log = [] := List.isEmpty_iff.mp ok
              have hstack : st.stack = [] := (Open.Reach.idle st hreach hnone).1
              refine emitting_emit { st with log := .call .subscribe :: st.log } ?_ hstack
              rw [received_cons, Entry.received, Option.toList_none, List.append_nil]
              exact hhanded

/-- One event less is left when the handler returns. -/
theorem less_of_emit (s : List (StatusOr T)) (l : Unit) (v : Machine.Outcome (emitter events))
    (hruns : Runs (emitter events) ((emitter events).resume noViews s l) v) :
    Less (A := emitter events) List.length (fun _ => 1) (s.length + 1) v := by
  cases s with
  | nil =>
      rw [hruns.eq_of_stop rfl]
      exact .ret _ (Nat.zero_lt_one)
  | cons e s =>
      rw [hruns.eq_of_stop rfl]
      exact .out _ _ _ (Nat.lt_succ_self _)

/-- What stands for the machine that hands out some events does so. -/
theorem Emitted.of_simulation
    (S : Simulation subscriptionCheck (handlerProtocol T broken) A (emitter events)) (st : Open A)
    (h : Open.Reach subscriptionCheck (LogRules Handling) st) : Emitted events broken st := by
  -- outside the pipeline there is a state of the machine with the same calls
  have hlinked : st.turn = .outside → ∃ st' : Open (emitter events), Emitting events st' ∧
      st'.log = st.log ∧ st'.stack.length = st.stack.length := by
    intro hturn
    cases S.reach allow_of_handling st h with
    | inside k m r ks hturn' => cases hturn.symm.trans hturn'
    | failed msg hturn' => cases hturn.symm.trans hturn'
    | outside st' ks hreached hlinked =>
        refine ⟨st', emitting hreached, hlinked.log, ?_⟩
        rw [hlinked.stack, hlinked.stack', List.length_map, List.length_map]
  refine ⟨fun hturn => ?_, fun hturn => ?_, fun hturn hstack hlog => ?_, fun hfailed => ?_, ?_⟩
  · rcases hlinked hturn with ⟨st', hemitting, hlog, -⟩
    rw [← hlog, ← hemitting.handed, List.take_left]
  · rcases hlinked hturn with ⟨st', hemitting, -, hlength⟩
    rw [← hlength]
    exact hemitting.single
  · rcases hlinked hturn with ⟨st', hemitting, hlog', hlength⟩
    rw [hstack] at hlength
    have hleft := hemitting.finished (List.eq_nil_of_length_eq_zero hlength) (hlog' ▸ hlog)
    have hhanded := hemitting.handed
    rwa [hleft, List.append_nil, hlog'] at hhanded
  · cases S.reach allow_of_handling st h with
    | outside st' ks hreached hlinked =>
        rw [hlinked.turn] at hfailed
        cases hfailed
    | inside k m r ks hturn =>
        rw [hturn] at hfailed
        cases hfailed
    | failed msg hturn hbroken => exact hbroken.2
  -- every answer of the machine leaves less to hand out
  · rcases S.settles allow_of_handling List.length (fun _ => 1) less_of_emit st h
      with ⟨st', hlater, hend | hgave⟩
    · exact ⟨st', hlater, Or.inl hend⟩
    · exact ⟨st', hlater, Or.inr ⟨hgave.1, hgave.2.2⟩⟩

/-- When the listener and all calls have returned, the stream of the pipeline
    has ended. -/
def SingleSubscriber.Concluded (st : Open (consumer (component T) A)) : Prop :=
  st.turn = .outside → st.stack = [] → st.log ≠ [] → st.state.views 0 = true

/-- Where no value came it has ended by itself, else it was cancelled. -/
theorem SingleSubscriber.concluded {x : Listing T} {late : Prop}
    (S : Simulation subscriptionCheck (streamProtocol T late broken) A x.stream)
    (st : Open (consumer (component T) A))
    (h : Open.Reach subscriptionCheck (LogRules Handling) st) : Concluded st := by
  intro hturn hstack hlog
  cases (simulation S).reach allow_of_handling st h with
  | inside k m r ks hturn' => cases hturn.symm.trans hturn'
  | failed msg hturn' => cases hturn.symm.trans hturn'
  | outside st' ks hreached hlinked =>
      have hks : ks = [] := List.map_eq_nil_iff.mp (hlinked.stack.symm.trans hstack)
      subst hks
      have hhanded : st'.state = [] :=
        (emitting hreached).finished hlinked.stack' (hlinked.log.trans_ne hlog)
      have htracks : Tracks S ((handlerProtocol T broken).stage st.log) st.state st'.state [] :=
        hlinked.rel
      rw [hhanded] at htracks
      generalize (handlerProtocol T broken).stage st.log = q at htracks
      cases htracks with
      | finished _ _ hq hstack' hended => exact hended

end Emitted

namespace Listing

variable {T R : Type}

/-- Nothing is published but `Done`. -/
def Silent (x : Listing T) : Prop :=
  x.values = [] ∧ x.ending.code = .outOfRange

/-- The result of a listing that is flattened is the one of the first value's
    listing, unless the next value is needed. -/
theorem result_flatMap (x : Listing T) (f : T → Listing R)
    (h : ∀ v vs, x.values = v :: vs → ¬(f v).Silent ∨ vs = [] ∧ x.ending.code = .outOfRange) :
    (x.flatMap f).result = x.result.bind fun v => (f v).result := by
  cases hvalues : x.values with
  | nil =>
      rw [flatMap, hvalues]
      by_cases hdone : x.ending.code = .outOfRange
      · simp only [List.foldr_nil, result, hvalues, hdone, if_true]
        rfl
      · simp only [List.foldr_nil, result, hvalues, hdone, if_false]
        rfl
  | cons v vs =>
      have hcons : x.flatMap f = (f v).andThen ((x.rest vs).flatMap f) := by
        rw [← flatMap_cons, ← hvalues]
      have hresult : x.result = .value v := by
        rw [result, hvalues]
      rw [hcons, hresult, StatusOr.bind]
      by_cases hdone : (f v).ending.code = .outOfRange
      · rw [andThen, if_pos hdone]
        cases hfirst : (f v).values with
        | cons w ws => simp only [result, hfirst, List.cons_append]
        | nil =>
            rcases h v vs hvalues with hspeaks | ⟨rfl, hlast⟩
            · exact absurd ⟨hfirst, hdone⟩ hspeaks
            · simp only [flatMap_nil, result, hfirst, List.append_nil, hlast, hdone, if_true]
      · rw [andThen, if_neg hdone]

end Listing

section Pipelines

variable {T R : Type}

/-- `MakeWithFlowControl` hands all that a pipeline publishes to its function. -/
theorem FlowControlSubscriber.hands_out_events (p : Pipeline T) (hsafe : p.Safe)
    (st : Open (consumer (component T) p.machine))
    (h : Open.Reach subscriptionCheck (LogRules Handling) st) :
    Emitted p.listing.events False st := by
  rcases p.exists_simulation_safe hsafe with ⟨S⟩
  exact Emitted.of_simulation (simulation S) st h

theorem FlowControlSubscriber.hands_out_tens :
    ∃ st : Open (consumer (component Nat) Pipeline.tens.machine),
      received st.log = [.value 1, .value 10, .value 2, .value 20, .done] ∧
        Emitted Pipeline.tens.listing.events False st := by
  rcases exists_reach_of_converse (A := consumer (component Nat) Pipeline.tens.machine)
    subscriptionCheck Handling 60 [.call .subscribe, .reply, .reply, .reply, .reply, .reply]
    (fun st => decide (received st.log = [.value 1, .value 10, .value 2, .value 20, .done]))
    (by decide +kernel) with ⟨st, hreach, htest⟩
  exact ⟨st, of_decide_eq_true htest,
    hands_out_events Pipeline.tens Pipeline.tens_safe st hreach⟩

/-- A `Single` hands its result to its listener, and nothing else, and then the
    stream has ended. -/
theorem SingleSubscriber.hands_out_result (p : Pipeline T) (hsafe : p.Safe)
    (st : Open (consumer (component T) p.machine))
    (h : Open.Reach subscriptionCheck (LogRules Handling) st) :
    Emitted [p.listing.result] False st ∧ Concluded st := by
  rcases p.exists_simulation_safe hsafe with ⟨S⟩
  exact ⟨Emitted.of_simulation (simulation S) st h, concluded S st h⟩

theorem SingleSubscriber.hands_out_first :
    ∃ st : Open (consumer (component Nat) Pipeline.tens.machine),
      received st.log = [.value 1] ∧ st.state.views 0 = true ∧
        Emitted [Pipeline.tens.listing.result] False st ∧ Concluded st := by
  rcases exists_reach_of_converse (A := consumer (component Nat) Pipeline.tens.machine)
    subscriptionCheck Handling 60 [.call .subscribe, .reply]
    (fun st => decide (received st.log = [.value 1]) && st.state.views 0)
    (by decide +kernel) with ⟨st, hreach, htest⟩
  rw [Bool.and_eq_true, decide_eq_true_eq] at htest
  exact ⟨st, htest.1, htest.2, hands_out_result Pipeline.tens Pipeline.tens_safe st hreach⟩

/-- `ContinueWith` is sequential composition, unless the continuation of the
    first value publishes nothing and there is more to continue with. -/
theorem SingleSubscriber.continueWith_result (p : Pipeline T) (func : T → Pipeline R) (hp : p.Safe)
    (hfunc : ∀ v, (func v).Mild)
    (hspeaks : ∀ v vs, p.listing.values = v :: vs →
      ¬(func v).listing.Silent ∨ vs = [] ∧ p.listing.ending.code = .outOfRange)
    (st : Open (consumer (component R) (p.flatMap func).machine))
    (h : Open.Reach subscriptionCheck (LogRules Handling) st) :
    Emitted [p.listing.result.bind fun v => (func v).listing.result] False st := by
  have hsafe : (p.flatMap func).Safe := ⟨hp, hfunc⟩
  rw [← Listing.result_flatMap _ _ hspeaks]
  rcases (p.flatMap func).exists_simulation_safe hsafe with ⟨S⟩
  exact Emitted.of_simulation (simulation S) st h

/-- The continuation of the only value publishes nothing. -/
def Pipeline.silenced : Pipeline Nat :=
  (Pipeline.source (.ofValues [1])).flatMap fun _ => .source (.ofValues [])

theorem SingleSubscriber.continueWith_nothing :
    ∃ st : Open (consumer (component Nat) Pipeline.silenced.machine),
      received st.log = [.status unexpectedEnd unexpectedEnd_notOk] ∧
        Emitted [.status unexpectedEnd unexpectedEnd_notOk] False st := by
  rcases exists_reach_of_converse (A := consumer (component Nat) Pipeline.silenced.machine)
    subscriptionCheck Handling 60 [.call .subscribe, .reply]
    (fun st => decide (received st.log = [.status unexpectedEnd unexpectedEnd_notOk]))
    (by decide +kernel) with ⟨st, hreach, htest⟩
  refine ⟨st, of_decide_eq_true htest, ?_⟩
  refine continueWith_result (.source (.ofValues [1])) (fun _ => .source (.ofValues []))
    (Pipeline.mild_source _).1 (fun _ => Pipeline.mild_source _) (fun v vs h => ?_) st hreach
  change [1] = v :: vs at h
  cases h
  exact Or.inr ⟨rfl, rfl⟩

end Pipelines

end RxCppUniq
