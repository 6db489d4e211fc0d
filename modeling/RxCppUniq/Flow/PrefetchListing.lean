import RxCppUniq.Flow.PatientRuns
import RxCppUniq.Flow.PipelineLaws
import RxCppUniq.Reactive.Prefetch

/-!
# Prefetch Passes Everything On

`Prefetch` over a base stream which stands for a listing delivers the listing,
whatever its buffer size and its refill mark are, to a subscriber that does not
cancel. The base is filled from while the subscriber handles events, and from
within the call that confirms the subscription; what is buffered and what the
base has not published yet are always what the subscriber has not received.

Nothing is delivered before the subscriber has returned from `OnSubscribe`, since
the buffer is filled after that.

## Main definitions

* `PrefetchingStream.Tracks`: What is buffered and what the base has left.

## Theorems

* `PrefetchingStream.fill_leads`: The base is asked for what the buffer has room
  for.
* `PrefetchingStream.simulation`: `Prefetch` stands for the generator that begins
  when it is confirmed.
* `PrefetchingStream.transparent`: `Prefetch` over a pipeline delivers its listing.
-/

namespace RxCppUniq

open Theory Theory.Machine Theory.Nest

open GeneratingStream (NoParts)

variable {T : Type}

namespace PrefetchingStream

variable {publisher : PrefetchingPublisher} {A : Operator T Empty NoParts} {x : Listing T}
  {late : Prop}

/-- The stream with its base stream. -/
abbrev closed (publisher : PrefetchingPublisher) (A : Operator T Empty NoParts) :
    Operator T Empty NoParts :=
  nest subscriptionCheck (component T publisher) (fun _ : Unit => A)

abbrev St (publisher : PrefetchingPublisher) (A : Operator T Empty NoParts) :=
  Nest.State (component T publisher) (fun _ : Unit => A)

abbrev ClosedPoint (T : Type) :=
  Nest.Point Call Unit Point (fun _ : Unit => Signal T)

/-- What is on the stack while the base is filled from in the call that confirms
    the subscription. -/
def bottom : List (Frame Point) :=
  [.own .done, .part 0, .own .subscribed, .env]

section Tracks

variable (S : Simulation subscriptionCheck (streamProtocol T late False) A x.stream)

/-- The base stands for its listing. -/
abbrev AtBase (q : StreamStage) (a : GeneratingStream (List T))
    (ls : List GeneratingStream.Point) (parts : List (Part (fun _ : Unit => A))) : Prop :=
  At (N := fun _ : Unit => A) (i := ()) S q a ls 0 parts

/-- The base has published some events and was asked for as many more as is
    known. -/
structure Running (s : PrefetchingStream T) (parts : List (Part (fun _ : Unit => A)))
    (a : GeneratingStream (List T)) (ls : List GeneratingStream.Point) : Prop where
  base : AtBase S .live a ls parts
  alive : a.hasEnded = false
  asked : s.upstreamRequestBalance = a.requested
  wrapped : s.wrapped = true

/-- The loop of the base is not running. It has so many events left. -/
inductive Upstream (s : PrefetchingStream T) (parts : List (Part (fun _ : Unit => A)))
    (ls : List GeneratingStream.Point) : List (StatusOr T) → Prop where
  | running (a : GeneratingStream (List T)) (h : Running S s parts a ls)
      (hquiet : a.generating = false) (hserved : a.requested.balance = 0) :
      Upstream s parts ls (x.rest a.state).events
  | ended (q : StreamStage) (a : GeneratingStream (List T)) (hat : AtBase S q a ls parts)
      (hended : a.hasEnded = true) (hwrapped : s.wrapped = false) : Upstream s parts ls []

/-- What is buffered, followed by what will come, is what the subscriber has not
    received. -/
structure Here (x : Listing T) (s : PrefetchingStream T) (b : PatientGenerator T)
    (coming : List (StatusOr T)) : Prop where
  alive : s.hasEnded = false
  locked : s.selfLock = true
  subscription : s.upstreamSubscription = some 0
  demand : s.requestBalance = b.gen.requested
  left : s.buffer ++ coming = (x.rest b.gen.state).events
  running : b.gen.hasEnded = false
  confirmed : b.subscribing = false

/-- The stream has got as far as the generator. -/
inductive Tracks : Bool → St publisher A → PatientGenerator T →
    List (ClosedPoint T × PatientGenerator.Point) → Prop where
  | fresh (st : St publisher A) (hstate : st.state = {}) (hparts : st.parts = [])
      (hstack : st.stack = []) :
      Tracks false st { gen := { state := x.values, generating := true } } []
  /-- The subscriber handles `OnSubscribe`. -/
  | confirming (a : GeneratingStream (List T)) (st : St publisher A)
      (b : PatientGenerator T)
      (hhere : Here x st.state { b with subscribing := false } (x.rest a.state).events)
      (hbase : Running S st.state st.parts a [.done]) (hquiet : a.generating = false)
      (hserved : a.requested.balance = 0) (hcreated : st.state.created = true)
      (hempty : st.state.buffer = []) (hdelivering : st.state.delivering = false)
      (hstack : st.stack = .own .confirmed :: bottom.tail) (hloop : b.gen.generating = true)
      (hunfinished : b.finished = false) : Tracks true st b [(.reply, .confirmed)]
  | idle (coming : List (StatusOr T)) (st : St publisher A) (b : PatientGenerator T)
      (hhere : Here x st.state b coming) (hupstream : Upstream S st.state st.parts [] coming)
      (hcreated : st.state.created = false) (hfull : st.state.buffer ≠ [])
      (hroom : st.state.buffer.length ≤ publisher.bufferSize)
      (hdelivering : st.state.delivering = false) (hstack : st.stack = [])
      (hserved : b.gen.requested.balance = 0) (hidle : b.gen.generating = false) :
      Tracks true st b []
  /-- It handles a value. -/
  | value (coming : List (StatusOr T)) (st : St publisher A) (b : PatientGenerator T)
      (hhere : Here x st.state b coming) (hupstream : Upstream S st.state st.parts [] coming)
      (hcreated : st.state.created = false)
      (hroom : st.state.buffer.length < publisher.bufferSize)
      (hdelivering : st.state.delivering = true)
      (hstack : st.stack = [.own (.delivered false), .env]) (hloop : b.gen.generating = true) :
      Tracks true st b [(.reply, .sent false)]
  /-- It handles a value while the base is publishing it. -/
  | passing (a : GeneratingStream (List T)) (st : St publisher A) (b : PatientGenerator T)
      (hhere : Here x st.state b (x.rest a.state).events)
      (hbase : Running S st.state st.parts a [.sent false, .done]) (hbusy : a.generating = true)
      (hasked : a.requested.balance + 1 = publisher.bufferSize)
      (hcreated : st.state.created = true) (hempty : st.state.buffer = [])
      (hdelivering : st.state.delivering = true)
      (hstack : st.stack = .own (.delivered false) :: .part 0 :: bottom)
      (hloop : b.gen.generating = true) : Tracks true st b [(.reply, .sent false)]
  /-- It handles the end. -/
  | last (st : St publisher A) (b : PatientGenerator T) (halive : st.state.hasEnded = false)
      (hcreated : st.state.created = false) (hwrapped : st.state.wrapped = false)
      (hstack : st.stack = [.own (.delivered true), .env]) (hrunning : b.gen.hasEnded = false)
      (hconfirmed : b.subscribing = false) (hloop : b.gen.generating = true)
      (hdelivering : st.state.delivering = true) : Tracks true st b [(.reply, .sent true)]
  | lastPassing (q : StreamStage) (a : GeneratingStream (List T)) (st : St publisher A)
      (b : PatientGenerator T) (hbase : AtBase S q a [.sent true, .done] st.parts)
      (hbusy : a.hasEnded = false) (halive : st.state.hasEnded = false)
      (hwrapped : st.state.wrapped = true) (hcreated : st.state.created = true)
      (hstack : st.stack = .own (.delivered true) :: .part 0 :: bottom)
      (hrunning : b.gen.hasEnded = false) (hconfirmed : b.subscribing = false)
      (hloop : b.gen.generating = true) (hdelivering : st.state.delivering = true) :
      Tracks true st b [(.reply, .sent true)]
  | destroying (st : St publisher A) (b : PatientGenerator T)
      (hended : st.state.hasEnded = true) (hended' : b.gen.hasEnded = true)
      (hstack : st.stack = [.own .done, .env]) : Tracks true st b [(.reply, .done)]
  | dead (st : St publisher A) (b : PatientGenerator T) (hended : st.state.hasEnded = true)
      (hended' : b.gen.hasEnded = true) (hstack : st.stack = []) : Tracks true st b []

/-- The buffer was filled. -/
structure Filled (st st' : St publisher A) (ls : List GeneratingStream.Point)
    (left coming : List (StatusOr T)) : Prop where
  same : ∃ buffer balance wrapped, st'.state = { st.state with
    buffer := buffer, upstreamRequestBalance := balance, wrapped := wrapped }
  upstream : Upstream S st'.state st'.parts ls coming
  left : st'.state.buffer ++ coming = left
  full : st'.state.buffer ≠ []
  room : st'.state.buffer.length ≤ publisher.bufferSize
  stack : st'.stack = st.stack

end Tracks

section Filling

variable {S : Simulation subscriptionCheck (streamProtocol T late False) A x.stream}
  {st : St publisher A} {a : GeneratingStream (List T)} {ls : List GeneratingStream.Point}
  {Inv : Nest.Result (component T publisher) (fun _ : Unit => A) → Prop}

/-- The loop is running already, or nothing is asked for. -/
def Quiet (s : PrefetchingStream T) : Prop :=
  s.delivering = true ∨ s.delivering = false ∧ s.requestBalance.hasRequests = false

/-- Nothing is delivered then, and nothing is if there is nothing. -/
theorem maybeDeliver_leads (st : St publisher A) {s : PrefetchingStream T}
    (hquiet : Quiet s ∨ s.delivering = false ∧ s.buffer = [])
    (hnext : Leads subscriptionCheck Inv (back { st with state := s })) :
    Leads subscriptionCheck Inv (perform subscriptionCheck st (maybeDeliver s)) := by
  by_cases hbusy : s.delivering = true
  · rw [maybeDeliver, if_pos hbusy]
    exact Leads.ret hnext
  · rw [maybeDeliver, if_neg hbusy]
    rw [Bool.not_eq_true] at hbusy
    have hcode : deliver { s with delivering := true } = (s, .ret) := by
      rcases s with ⟨_, _, _, _, _, buffer, _, _, _⟩
      subst hbusy
      cases buffer with
      | nil => rfl
      | cons e es =>
          rcases hquiet with (hfalse | ⟨-, hno⟩) | ⟨-, hnil⟩
          · cases hfalse
          · simp only [deliver, hno, Bool.false_eq_true, if_false]
          · cases hnil
    refine Leads.go ?_
    change Leads subscriptionCheck Inv
      (perform subscriptionCheck { st with state := _ } (deliver { s with delivering := true }))
    rw [hcode]
    exact Leads.ret hnext

/-- An event that is not delivered at once is buffered. -/
theorem onNext_leads {event : StatusOr T} {c : RequestBalance}
    (hc : st.state.upstreamRequestBalance.remove 1 = some c)
    (hroom : st.state.buffer.length < publisher.bufferSize)
    (hquiet : Quiet st.state)
    (hnext : Leads subscriptionCheck Inv (back { st with state := { st.state with
      upstreamRequestBalance := c, buffer := st.state.buffer ++ [event] } })) :
    Leads subscriptionCheck Inv
      (perform subscriptionCheck st (st.state.onNext publisher event)) := by
  rw [onNext, if_neg (Nat.not_le.mpr hroom)]
  simp only [hc]
  exact maybeDeliver_leads st (Or.inl hquiet) hnext

/-- The base publishes all that it was asked for, and it is buffered. The
    induction is on how much it was asked for. -/
theorem fill_leads (hfits : publisher.bufferSize < kMax) (n : Nat)
    {ks : List (A.Point × GeneratingStream.Point)} {r : Machine.Outcome A}
    {r' : Machine.Outcome x.stream}
    (hanswers : Answers (streamProtocol T late False) S.Rel .live ks r r')
    (hks : ks.map Prod.snd = ls)
    (hruns : ∀ v, Runs x.stream (a, .goto .generate) v → Runs x.stream r' v)
    (hlt : 0 < st.parts.length) (halive : a.hasEnded = false)
    (hasked : st.state.upstreamRequestBalance = a.requested) (hwrapped : st.state.wrapped = true)
    (hlocked : st.state.selfLock = true) (hn : a.requested.balance = n)
    (hroom : st.state.buffer.length + n ≤ publisher.bufferSize)
    (hfull : st.state.buffer ≠ [] ∨ 0 < n) (hquiet : Quiet st.state)
    (hnext : ∀ st' coming, Filled S st st' ls (st.state.buffer ++ (x.rest a.state).events) coming →
      Leads subscriptionCheck Inv (back st')) :
    Leads subscriptionCheck Inv (answer st 0 () (ks.map Prod.fst) r) := by
  have hfail : ∀ q, (streamProtocol T late False).broken q →
      ∀ (st : St publisher A) msg, Inv (st, .fail msg) :=
    fun q hbroken => hbroken.2.elim
  induction n generalizing st a ks r r' with
  | zero =>
      have hno : a.requested.hasRequests = false := by
        rw [Bool.eq_false_iff, ne_eq, RequestBalance.hasRequests_iff]
        omega
      refine Leads.answer_ret hanswers (hruns _ (GeneratingStream.runs_none hno)) hlt (hfail _)
        fun st' hmoves hat => ?_
      rw [hks] at hat
      have hsame := hmoves.state
      refine hnext st' (x.rest a.state).events ⟨⟨_, _, _, hsame⟩, ?_, ?_, ?_, ?_, hmoves.stack_eq⟩
      · exact .running { a with generating := false } ⟨hat, halive, hsame ▸ hasked,
            hsame ▸ hwrapped⟩
          rfl hn
      · rw [hsame]
      · rw [hsame]
        exact hfull.resolve_right (Nat.lt_irrefl 0)
      · rw [hsame]
        exact hroom
  | succ n ih =>
      have hmore : a.requested.hasRequests = true := by
        rw [RequestBalance.hasRequests_iff]
        omega
      rcases RequestBalance.remove_isSome a.requested (by omega) with ⟨c, hc⟩
      have hleft : c.balance = n := by
        have hremove := RequestBalance.remove_of_lt _ _ 1 (by omega) hc
        omega
      have hlength : st.state.buffer.length < publisher.bufferSize := by omega
      cases hstate : a.state with
      | cons v vs =>
          refine Leads.answer_out hanswers (hruns _ (Listing.runs_value hstate hmore hc)) hlt
              (hfail _)
            fun st1 hmoves hat => ?_
          rw [hks] at hat
          have hsame := hmoves.state
          change Leads subscriptionCheck Inv
            (perform subscriptionCheck st1 (onNext publisher st1.state (.value v)))
          refine onNext_leads (c := c) ?_ (hsame ▸ hlength) (hsame ▸ hquiet) ?_
          · rw [hsame, hasked]
            exact hc
          · refine Leads.part_go (S := S) (i := ()) hmoves.stack_eq hat fun ks r hls hanswers' => ?_
            refine ih (a := { a with requested := c, state := vs }) hanswers' hls
              (fun w hw => GeneratingStream.runs_sent halive hw) hat.lt halive rfl
              (hsame ▸ hwrapped) (hsame ▸ hlocked) hleft ?_ ?_ (hsame ▸ hquiet) ?_
            · simp only [hsame, List.length_append, List.length_singleton]
              omega
            · exact Or.inl (List.append_ne_nil_of_right_ne_nil _ (List.cons_ne_nil _ _))
            · intro st' coming hfilled
              rcases hfilled with ⟨⟨buffer, balance, wrapped, hsame'⟩, hup, hcoming, hne,
                  hle, hstack⟩
              refine hnext st' coming ⟨⟨buffer, balance, wrapped, ?_⟩, hup, ?_, hne, hle, hstack⟩
              · rw [hsame', hsame]
              · rw [hcoming, hsame, hstate, List.append_assoc]
                rfl
      | nil =>
          refine Leads.answer_out hanswers (hruns _ (Listing.runs_status hstate hmore hc)) hlt
            (hfail _) fun st1 hmoves hat => ?_
          rw [hks] at hat
          have hsame := hmoves.state
          change Leads subscriptionCheck Inv (perform subscriptionCheck st1
            (onNext publisher st1.state (.status x.ending x.notOk)))
          refine onNext_leads (c := c) ?_ (hsame ▸ hlength) (hsame ▸ hquiet) ?_
          · rw [hsame, hasked]
            exact hc
          -- the base is destroyed, and the wrapper with it
          · refine Leads.part_out (S := S) (i := ()) hmoves.stack_eq hat
              (GeneratingStream.runs_last halive) (hfail _) fun st2 hmoves' hat' => ?_
            have hcode : (component T publisher).said st2.views st2.state 0 () .destroy =
                ({ st2.state with wrapped := false }, .ret) := by
              change release { st2.state with wrapped := false } = _
              have hlocked' : st2.state.selfLock = true := by
                rw [hmoves'.state]
                exact hsame ▸ hlocked
              simp only [release, hlocked', Bool.true_or, if_true]
            change Leads subscriptionCheck Inv (perform subscriptionCheck st2
              ((component T publisher).said st2.views st2.state 0 () .destroy))
            rw [hcode]
            refine Leads.ret ?_
            refine Leads.part_ret (S := S) (i := ()) (hmoves'.stack_eq.trans hmoves.stack_eq) hat'
              GeneratingStream.runs_done (hfail _) fun st3 hmoves2 hat2 => ?_
            have hsame3 : st3.state = { st.state with
                buffer := st.state.buffer ++ [.status x.ending x.notOk]
                upstreamRequestBalance := c, wrapped := false } := by
              rw [hmoves2.state]
              simp only [hmoves'.state, hsame]
            refine hnext st3 [] ⟨⟨_, _, _, hsame3⟩, ?_, ?_, ?_, ?_, hmoves2.stack_eq⟩
            · exact .ended _ _ hat2 rfl (hsame3 ▸ rfl)
            · rw [hsame3, hstate, List.append_nil]
              rfl
            · rw [hsame3]
              exact List.append_ne_nil_of_right_ne_nil _ (List.cons_ne_nil _ _)
            · rw [hsame3]
              simp only [List.length_append, List.length_singleton]
              omega

/-- An event that is asked for is passed on if nothing is buffered. -/
theorem pass_leads {event : StatusOr T} {c cA : RequestBalance}
    (hempty : st.state.buffer = []) (hidle : st.state.delivering = false)
    (hsize : 0 < publisher.bufferSize) (hmore : st.state.requestBalance.hasRequests = true)
    (hcA : st.state.upstreamRequestBalance.remove 1 = some cA)
    (hc : st.state.requestBalance.remove 1 = some c)
    (hnext : Inv ({ st with
      state := { st.state with
        upstreamRequestBalance := cA, requestBalance := c, buffer := [], delivering := true }
      stack := .own (.delivered event.isEnd) :: st.stack
      log := .out (.onNext event) :: st.log }, .out (.onNext event) .reply)) :
    Leads subscriptionCheck Inv
      (perform subscriptionCheck st (st.state.onNext publisher event)) := by
  have hroom : ¬publisher.bufferSize ≤ st.state.buffer.length := by
    rw [hempty, List.length_nil]
    omega
  rw [onNext, if_neg hroom]
  simp only [hcA, hempty, List.nil_append]
  rw [maybeDeliver, if_neg (Bool.eq_false_iff.mp hidle)]
  -- the event goes into the empty buffer and out of it in one round
  have hcode : deliver { st.state with
        upstreamRequestBalance := cA, buffer := [event], delivering := true } =
      ({ st.state with
          upstreamRequestBalance := cA, requestBalance := c, buffer := [], delivering := true },
        .out (.onNext event) (.delivered event.isEnd)) := by
    simp only [deliver, hmore, if_true, hc]
  refine Leads.go ?_
  change Leads subscriptionCheck Inv (perform subscriptionCheck { st with state := _ }
    (deliver { st.state with
      upstreamRequestBalance := cA, buffer := [event], delivering := true }))
  rw [hcode]
  exact Leads.stop rfl hnext

/-- After an event was delivered the buffer is filled up, if it has run low. -/
theorem refill_leads (st : St publisher A) (hfits : publisher.bufferSize < kMax)
    {b : PatientGenerator T}
    {coming : List (StatusOr T)} (hhere : Here x st.state b coming)
    (hupstream : Upstream S st.state st.parts [] coming)
    (hroom : st.state.buffer.length < publisher.bufferSize)
    (hdelivering : st.state.delivering = true)
    (hnext : ∀ st' coming', Filled S st st' [] (x.rest b.gen.state).events coming' →
      Leads subscriptionCheck Inv (perform subscriptionCheck st' st'.state.filled)) :
    Leads subscriptionCheck Inv
      (perform subscriptionCheck st (st.state.maybeFill publisher st.views .filled)) := by
  have hgo : st.state.buffer ≠ [] → Leads subscriptionCheck Inv
      (perform subscriptionCheck st (st.state, .goto .filled)) := by
    intro hfull
    refine Leads.go ?_
    exact hnext st coming ⟨⟨_, _, _, rfl⟩, hupstream, hhere.left, hfull, Nat.le_of_lt hroom, rfl⟩
  rw [maybeFill, hhere.subscription]
  cases hupstream with
  -- an upstream that has ended left its end in the buffer, so the loop goes on
  | ended q a hat hended hwrapped =>
      have hview : st.views 0 = a.hasEnded := hat.view
      simp only [hview, hended, if_true]
      refine hgo fun hnil => ?_
      have hleft := hhere.left
      rw [hnil] at hleft
      exact Listing.events_ne_nil _ hleft.symm
  | running a hbase hquiet hserved =>
      have hview : st.views 0 = a.hasEnded := hbase.base.view
      simp only [hview, hbase.alive, Bool.false_eq_true, if_false]
      -- the buffer is filled up only when it has fallen to the refill bound
      by_cases hfull : publisher.refill < st.state.buffer.length
      · rw [if_pos hfull]
        exact hgo (List.ne_nil_of_length_pos (by omega))
      · rw [if_neg hfull]
        have hnone : st.state.upstreamRequestBalance.balance = 0 := by
          rw [hbase.asked]
          exact hserved
        have hmiss :
            st.state.toFill publisher = publisher.bufferSize - st.state.buffer.length := rfl
        rw [if_neg (by omega), hnone, Nat.sub_zero]
        have hgate :
            subscriptionCheck a.hasEnded (.request (st.state.toFill publisher)) = none := by
          rw [hbase.alive, subscriptionCheck_false]
        have hallow : (streamProtocol T late False).allow .live
            (.request (st.state.toFill publisher)) := by
          refine ⟨?_, by omega, by omega⟩
          simp only [ne_eq, reduceCtorEq, not_false_eq_true]
        refine Leads.ask (S := S) (i := ()) hbase.base hgate ?_
        refine Leads.ask_go (S := S) (i := ()) hbase.base hallow hgate fun ks r hls hanswers => ?_
        refine fill_leads (S := S) hfits (st.state.toFill publisher)
          (a := { a with
            requested := a.requested.add (st.state.toFill publisher), generating := true })
          hanswers hls (fun v hv => GeneratingStream.runs_request hquiet hv)
              hbase.base.lt hbase.alive
          ?_ hbase.wrapped hhere.locked ?_ ?_ (Or.inr ?_) (Or.inl hdelivering) ?_
        · exact congrArg (fun c => c.add (st.state.toFill publisher)) hbase.asked
        · simp only [RequestBalance.balance_add, hserved]
          omega
        · simp only
          omega
        · omega
        · intro st' coming' hfilled
          rcases hfilled with ⟨⟨buffer, balance, wrapped, hsame⟩, hup, hleft, hne, hle, hstack'⟩
          refine Leads.own hstack' ?_
          refine hnext { st' with stack := st.stack } coming' ⟨⟨buffer, balance, wrapped, ?_⟩, hup,
            hleft.trans hhere.left, hne, hle, rfl⟩
          simp only [hsame, hhere.subscription]

end Filling

section Turns

variable {S : Simulation subscriptionCheck (streamProtocol T late False) A x.stream}
  {st : St publisher A} {a : GeneratingStream (List T)} {b : PatientGenerator T}
      {r' : Machine.Outcome (x.patient false)}

/-- The whole goes on to where it has done the same. -/
def Goes (S : Simulation subscriptionCheck (streamProtocol T late False) A x.stream)
    (publisher : PrefetchingPublisher) (ks : List (ClosedPoint T × PatientGenerator.Point))
    (r : Machine.Outcome (x.patient false)) (v : Machine.Outcome (closed publisher A)) : Prop :=
  ∃ v', Runs (x.patient false) r v' ∧
    Match (patientProtocol T) (A := closed publisher A) (B := x.patient false) (Tracks S)
        true ks v v'

theorem Upstream.congr {s s' : PrefetchingStream T} {parts : List (Part (fun _ : Unit => A))}
    {ls : List GeneratingStream.Point} {coming : List (StatusOr T)}
    (h : Upstream S s parts ls coming)
    (hasked : s'.upstreamRequestBalance = s.upstreamRequestBalance)
    (hwrapped : s'.wrapped = s.wrapped) : Upstream S s' parts ls coming := by
  cases h with
  | running a h hquiet hserved =>
      exact .running a ⟨h.base, h.alive, hasked.trans h.asked, hwrapped.trans h.wrapped⟩
          hquiet hserved
  | ended q a hat hended hgone => exact .ended q a hat hended (hwrapped.trans hgone)

/-- The next event is taken from the buffer, if one is asked for. -/
theorem deliver_turn {coming : List (StatusOr T)} (hhere : Here x st.state b coming)
    (hupstream : Upstream S st.state st.parts [] coming) (hcreated : st.state.created = false)
    (hfull : st.state.buffer ≠ []) (hroom : st.state.buffer.length ≤ publisher.bufferSize)
    (hdelivering : st.state.delivering = true) (hstack : st.stack = [.env])
    (hloop : b.gen.generating = true)
    (hruns : ∀ w, Runs (x.patient false) (b, .goto .generate) w → Runs (x.patient false) r' w) :
    Leads subscriptionCheck (Goes S publisher [] r')
      (perform subscriptionCheck st st.state.deliver) := by
  rcases hhere with ⟨halive, hlocked, hsubscription, hdemand, hleft, hrunning, hconfirmed⟩
  cases hbuffer : st.state.buffer with
  -- only the end is left, and with it nothing may come from the upstream
  | nil => exact absurd hbuffer hfull
  | cons e buffer =>
      rw [hbuffer] at hleft hroom
      rw [deliver, hbuffer, hdemand]
      by_cases hmore : b.gen.requested.hasRequests = true
      · rcases RequestBalance.remove_isSome b.gen.requested
          ((RequestBalance.hasRequests_iff _).mp hmore) with ⟨c, hc⟩
        simp only [hmore, if_true, hc]
        -- what the generator would make next stands at the head of the buffer
        cases hstate : b.gen.state with
        | nil =>
            rw [hstate] at hleft
            rcases List.cons.inj hleft with ⟨rfl, hrest⟩
            rcases List.append_eq_nil_iff.mp hrest with ⟨rfl, rfl⟩
            refine .stop rfl ⟨_, hruns _ (Listing.patient_status hstate hmore hc), .out
                _ _ _ _ _ ?_⟩
            rw [StatusOr.isEnd_status]
            refine .last _ _ halive hcreated ?_ (congrArg _ hstack) hrunning hconfirmed
                hloop hdelivering
            generalize hnone : ([] : List (StatusOr T)) = coming at hupstream
            cases hupstream with
            | running a _ _ _ => exact absurd hnone.symm (Listing.events_ne_nil _)
            | ended q a _ _ hgone => exact hgone
        | cons v vs =>
            rw [hstate] at hleft
            rcases List.cons.inj hleft with ⟨rfl, hrest⟩
            refine .stop rfl ⟨_, hruns _ (Listing.patient_value hstate hmore hc), .out _ _ _ _ _ ?_⟩
            refine .value coming _ _ ⟨halive, hlocked, hsubscription, rfl, hrest,
                hrunning, hconfirmed⟩
              (hupstream.congr rfl rfl) hcreated ?_ hdelivering (congrArg _ hstack) hloop
            rw [List.length_cons] at hroom
            exact hroom
      · rw [Bool.not_eq_true] at hmore
        simp only [hmore, Bool.false_eq_true, if_false]
        refine Leads.ret (Leads.env hstack ?_)
        refine ⟨_, hruns _ (Listing.patient_none hmore), .ret _ _ ?_⟩
        refine .idle coming _ _ ⟨halive, hlocked, hsubscription, rfl, hleft, hrunning, hconfirmed⟩
          (hupstream.congr rfl rfl) hcreated (List.cons_ne_nil _ _) hroom rfl rfl ?_ rfl
        rw [Bool.eq_false_iff, ne_eq, RequestBalance.hasRequests_iff] at hmore
        exact Nat.eq_zero_of_not_pos hmore

/-- The call that has confirmed the subscription returns. -/
theorem leave {coming : List (StatusOr T)}
    {Inv : Nest.Result (component T publisher) (fun _ : Unit => A) → Prop}
    (hupstream : Upstream S st.state st.parts [.done] coming) (hlocked : st.state.selfLock = true)
    (hstack : st.stack = bottom)
    (hnext : ∀ st', st'.state = { st.state with created := false } → st'.stack = [] →
      Upstream S st'.state st'.parts [] coming → Inv (st', .ret)) :
    Leads subscriptionCheck Inv (back st) := by
  have hfail : ∀ q, (streamProtocol T late False).broken q →
      ∀ (st : St publisher A) msg, Inv (st, .fail msg) :=
    fun q hbroken => hbroken.2.elim
  have hreleased : ∀ st' : St publisher A, st'.state = st.state →
      (component T publisher).resume st'.views st'.state .subscribed =
        ({ st.state with created := false }, .ret) := by
    intro st' hsame
    change release { st'.state with created := false } = _
    rw [hsame]
    simp only [release, hlocked, Bool.true_or, if_true]
  refine Leads.own hstack (Leads.ret ?_)
  -- the upstream is inside the call of OnSubscribe, and returns from it too
  cases hupstream with
  | running a h hquiet hserved =>
      refine Leads.part_ret (S := S) (i := ()) rfl h.base GeneratingStream.runs_done (hfail _)
        fun st' hmoves hat => ?_
      refine Leads.own hmoves.stack_eq ?_
      change Leads subscriptionCheck Inv (perform subscriptionCheck { st' with stack := [.env] }
        ((component T publisher).resume st'.views st'.state .subscribed))
      rw [hreleased st' hmoves.state]
      refine Leads.ret (Leads.env rfl (hnext _ rfl rfl ?_))
      exact .running a ⟨hat, h.alive, h.asked, h.wrapped⟩ hquiet hserved
  | ended q a hbase hended hwrapped =>
      refine Leads.part_ret (S := S) (i := ()) rfl hbase GeneratingStream.runs_done (hfail _)
        fun st' hmoves hat => ?_
      refine Leads.own hmoves.stack_eq ?_
      change Leads subscriptionCheck Inv (perform subscriptionCheck { st' with stack := [.env] }
        ((component T publisher).resume st'.views st'.state .subscribed))
      rw [hreleased st' hmoves.state]
      exact Leads.ret (Leads.env rfl (hnext _ rfl rfl (.ended q a hat hended hwrapped)))

/-- The base publishes, and each event is passed on as long as one is asked
    for. -/
theorem base_turn (hfits : publisher.bufferSize < kMax) (hsize : 0 < publisher.bufferSize)
    {ks : List (A.Point × GeneratingStream.Point)} {r : Machine.Outcome A}
    {rA : Machine.Outcome x.stream}
    (hanswers : Answers (streamProtocol T late False) S.Rel .live ks r rA)
    (hks : ks.map Prod.snd = [.done])
    (hrunsA : ∀ v, Runs x.stream (a, .goto .generate) v → Runs x.stream rA v)
    (hlt : 0 < st.parts.length) (hhere : Here x st.state b (x.rest a.state).events)
    (halive : a.hasEnded = false) (hbusy : a.generating = true)
    (hasked : st.state.upstreamRequestBalance = a.requested) (hwrapped : st.state.wrapped = true)
    (hbalance : a.requested.balance = publisher.bufferSize) (hcreated : st.state.created = true)
    (hempty : st.state.buffer = []) (hdelivering : st.state.delivering = false)
    (hstack : st.stack = bottom) (hloop : b.gen.generating = true)
    (hruns : ∀ w, Runs (x.patient false) (b, .goto .generate) w → Runs (x.patient false) r' w) :
    Leads subscriptionCheck (Goes S publisher [] r') (answer st 0 () (ks.map Prod.fst) r) := by
  have hfail : ∀ q, (streamProtocol T late False).broken q →
      ∀ (st : St publisher A) msg, Goes S publisher [] r' (st, .fail msg) :=
    fun q hbroken => hbroken.2.elim
  by_cases hmore : b.gen.requested.hasRequests = true
  · rcases RequestBalance.remove_isSome b.gen.requested
      ((RequestBalance.hasRequests_iff _).mp hmore) with ⟨c, hc⟩
    rcases RequestBalance.remove_isSome a.requested (by omega) with ⟨cA, hcA⟩
    have hmoreA : a.requested.hasRequests = true := by
      rw [RequestBalance.hasRequests_iff]
      omega
    have hleft : a.state = b.gen.state := by
      have hevents := hhere.left
      rw [hempty, List.nil_append] at hevents
      exact congrArg Listing.values (Listing.events_injective hevents)
    have hasked' : cA.balance + 1 = publisher.bufferSize := by
      have hremove := RequestBalance.remove_of_lt _ _ 1 (by omega) hcA
      omega
    -- what the base publishes is what the subscriber waits for
    have hpass : ∀ st1 : St publisher A, st1.state = st.state → ∀ event,
        Goes S publisher [] r' ({ st1 with
          state := { st.state with
            upstreamRequestBalance := cA, requestBalance := c, buffer := [], delivering := true }
          stack := .own (.delivered event.isEnd) :: st1.stack
          log := .out (.onNext event) :: st1.log }, .out (.onNext event) .reply) →
        Leads subscriptionCheck (Goes S publisher [] r')
          (perform subscriptionCheck st1 (onNext publisher st1.state event)) := by
      intro st1 hsame event hnext
      refine pass_leads (by rw [hsame]; exact hempty) (by rw [hsame]; exact hdelivering) hsize
        (by rw [hsame, hhere.demand]; exact hmore) (by rw [hsame, hasked]; exact hcA)
        (by rw [hsame, hhere.demand]; exact hc) ?_
      rw [hsame]
      exact hnext
    cases hstate : a.state with
    | nil =>
        refine Leads.answer_out hanswers (hrunsA _ (Listing.runs_status hstate hmoreA hcA)) hlt
          (hfail _) fun st1 hmoves hat => hpass st1 hmoves.state _ ?_
        rw [hks] at hat
        refine ⟨_, hruns _ (Listing.patient_status (hleft ▸ hstate) hmore hc), .out _ _ _ _ _ ?_⟩
        rw [StatusOr.isEnd_status]
        exact .lastPassing _ _ _ _ hat halive hhere.alive hwrapped hcreated
          (congrArg _ (hmoves.stack_eq.trans (congrArg _ hstack))) hhere.running
              hhere.confirmed hloop rfl
    | cons v vs =>
        refine Leads.answer_out hanswers (hrunsA _ (Listing.runs_value hstate hmoreA hcA)) hlt
          (hfail _) fun st1 hmoves hat => hpass st1 hmoves.state _ ?_
        rw [hks] at hat
        refine ⟨_, hruns _ (Listing.patient_value (hleft ▸ hstate) hmore hc), .out _ _ _ _ _ ?_⟩
        exact .passing { a with requested := cA, state := vs } _ _
          ⟨hhere.alive, hhere.locked, hhere.subscription, rfl, rfl, hhere.running, hhere.confirmed⟩
          ⟨hat, halive, rfl, hwrapped⟩ hbusy hasked' hcreated rfl rfl
          (congrArg _ (hmoves.stack_eq.trans (congrArg _ hstack))) hloop
  · rw [Bool.not_eq_true] at hmore
    have hnone : b.gen.requested.balance = 0 := by
      rw [Bool.eq_false_iff, ne_eq, RequestBalance.hasRequests_iff] at hmore
      exact Nat.eq_zero_of_not_pos hmore
    refine fill_leads (S := S) hfits publisher.bufferSize hanswers hks hrunsA hlt halive hasked
      hwrapped hhere.locked hbalance ?_ (Or.inr hsize) (Or.inr ⟨hdelivering, ?_⟩)
      fun st' coming hfilled => ?_
    · rw [hempty, List.length_nil]
      omega
    · rw [hhere.demand]
      exact hmore
    · rcases hfilled with ⟨⟨buffer, balance, wrapped, hsame⟩, hup, hleft, hfull, hroom, hstack'⟩
      refine leave hup (by rw [hsame]; exact hhere.locked) (hstack'.trans hstack)
        fun st2 hsame2 hstack2 hup2 => ?_
      refine ⟨_, hruns _ (Listing.patient_none hmore), .ret _ _ ?_⟩
      have hsame3 := hsame2
      rw [hsame] at hsame3
      refine .idle coming st2 _ ⟨?_, ?_, ?_, ?_, ?_, hhere.running, hhere.confirmed⟩ hup2 ?_ ?_ ?_
          ?_ hstack2 hnone rfl
      · rw [hsame3]; exact hhere.alive
      · rw [hsame3]; exact hhere.locked
      · rw [hsame3]; exact hhere.subscription
      · rw [hsame3]; exact hhere.demand
      · rw [hsame2]; exact hleft.trans hhere.left
      · rw [hsame3]
      · rw [hsame2]; exact hfull
      · rw [hsame2]; exact hroom
      · rw [hsame3]; exact hdelivering

/-- The subscriber has returned from `OnSubscribe`, and the buffer is filled for
    the first time. -/
theorem confirmed_leads (hfits : publisher.bufferSize < kMax) (hsize : 0 < publisher.bufferSize)
    (hhere : Here x st.state b (x.rest a.state).events)
    (hbase : Running S st.state st.parts a [.done]) (hquiet : a.generating = false)
    (hserved : a.requested.balance = 0) (hcreated : st.state.created = true)
    (hempty : st.state.buffer = []) (hdelivering : st.state.delivering = false)
    (hstack : st.stack = .own .confirmed :: bottom.tail) (hloop : b.gen.generating = true)
    (hruns : ∀ w, Runs (x.patient false) (b, .goto .generate) w → Runs (x.patient false) r' w) :
    Leads subscriptionCheck (Goes S publisher [] r') (back st) := by
  have hview : st.views 0 = a.hasEnded := hbase.base.view
  have hnone : st.state.upstreamRequestBalance.balance = 0 := by
    rw [hbase.asked]
    exact hserved
  have hcode : (component T publisher).resume st.views st.state .confirmed =
      ({ st.state with
          upstreamRequestBalance := st.state.upstreamRequestBalance.add publisher.bufferSize },
        .ask 0 (.request publisher.bufferSize) .done) := by
    change (if st.state.hasEnded then _ else st.state.maybeFill publisher st.views .done) = _
    rw [if_neg (Bool.eq_false_iff.mp hhere.alive), maybeFill]
    simp only [hhere.subscription, hview, hbase.alive, Bool.false_eq_true, if_false, toFill, hempty,
      List.length_nil, Nat.not_lt_zero, hnone, Nat.sub_zero, Nat.not_le.mpr hsize]
  have hgate : subscriptionCheck a.hasEnded (.request publisher.bufferSize) = none := by
    rw [hbase.alive, subscriptionCheck_false]
  have hallow : (streamProtocol T late False).allow .live (.request publisher.bufferSize) := by
    refine ⟨?_, hsize, Nat.le_of_lt hfits⟩
    simp only [ne_eq, reduceCtorEq, not_false_eq_true]
  refine Leads.own hstack ?_
  change Leads subscriptionCheck _ (perform subscriptionCheck { st with stack := bottom.tail }
    ((component T publisher).resume st.views st.state .confirmed))
  rw [hcode]
  refine Leads.ask (S := S) (i := ()) hbase.base hgate ?_
  refine Leads.ask_go (S := S) (i := ()) hbase.base hallow hgate fun ks r hls hanswers => ?_
  -- the upstream answers the first request before it returns
  refine base_turn (S := S) (b := b) hfits hsize (a := { a with
    requested := a.requested.add publisher.bufferSize, generating := true }) hanswers hls
    (fun v hv => GeneratingStream.runs_request hquiet hv) hbase.base.lt ?_ hbase.alive rfl ?_
    hbase.wrapped ?_ hcreated hempty hdelivering rfl hloop hruns
  · exact ⟨hhere.alive, hhere.locked, hhere.subscription, hhere.demand, hhere.left, hhere.running,
        hhere.confirmed⟩
  · exact congrArg (fun c => c.add publisher.bufferSize) hbase.asked
  · simp only [RequestBalance.balance_add, hserved]
    omega

/-- It has returned from a value that the base is publishing. -/
theorem passing_leads (hfits : publisher.bufferSize < kMax) (hsize : 0 < publisher.bufferSize)
    (hhere : Here x st.state b (x.rest a.state).events)
    (hbase : Running S st.state st.parts a [.sent false, .done]) (hbusy : a.generating = true)
    (hasked : a.requested.balance + 1 = publisher.bufferSize) (hcreated : st.state.created = true)
    (hempty : st.state.buffer = [])
    (hstack : st.stack = .own (.delivered false) :: .part 0 :: bottom)
    (hloop : b.gen.generating = true)
    (hruns : ∀ w, Runs (x.patient false) (b, .goto .generate) w → Runs (x.patient false) r' w) :
    Leads subscriptionCheck (Goes S publisher [] r') (back st) := by
  have hview : st.views 0 = a.hasEnded := hbase.base.view
  have hmiss : publisher.bufferSize - st.state.upstreamRequestBalance.balance = 1 := by
    rw [hbase.asked]
    omega
  have hcode : (component T publisher).resume st.views st.state (.delivered false) =
      ({ st.state with upstreamRequestBalance := st.state.upstreamRequestBalance.add 1 },
        .ask 0 (.request 1) .filled) := by
    change st.state.delivered publisher st.views false = _
    rw [delivered, if_neg (Bool.eq_false_iff.mp hhere.alive), if_neg Bool.false_ne_true, maybeFill]
    have hlow : ¬publisher.bufferSize ≤ st.state.upstreamRequestBalance.balance := by omega
    simp only [hhere.subscription, hview, hbase.alive, Bool.false_eq_true, if_false, toFill, hempty,
      List.length_nil, Nat.not_lt_zero, Nat.sub_zero, hlow, hmiss]
  have hgate : subscriptionCheck a.hasEnded (.request 1) = none := by
    rw [hbase.alive, subscriptionCheck_false]
  have hallow : (streamProtocol T late False).allow .live (.request 1) := by
    refine ⟨?_, Nat.le_refl 1, by omega⟩
    simp only [ne_eq, reduceCtorEq, not_false_eq_true]
  have hfail : ∀ q, (streamProtocol T late False).broken q →
      ∀ (st : St publisher A) msg, Goes S publisher [] r' (st, .fail msg) :=
    fun q hbroken => hbroken.2.elim
  refine Leads.own hstack ?_
  change Leads subscriptionCheck _ (perform subscriptionCheck { st with stack := .part 0 :: bottom }
    ((component T publisher).resume st.views st.state (.delivered false)))
  rw [hcode]
  refine Leads.ask (S := S) (i := ()) hbase.base hgate ?_
  refine Leads.ask_ret (S := S) (i := ()) hbase.base hallow hgate
    (GeneratingStream.runs_busy 1 hbusy) (hfail _) fun st1 hmoves hat => ?_
  -- nothing is left in the buffer, and the loop of the base goes on
  have hsame := hmoves.state
  have hfilled : (component T publisher).resume st1.views st1.state .filled =
      ({ st1.state with delivering := false }, .ret) := by
    change st1.state.filled = _
    rw [filled, hsame]
    simp only [hhere.alive, hempty, List.isEmpty_nil, Bool.false_eq_true, if_false, if_true]
  refine Leads.own hmoves.stack_eq ?_
  change Leads subscriptionCheck _ (perform subscriptionCheck
      { st1 with stack := .part 0 :: bottom }
    ((component T publisher).resume st1.views st1.state .filled))
  rw [hfilled]
  refine Leads.ret ?_
  refine Leads.part_go (S := S) (i := ()) rfl hat fun ks r hls hanswers => ?_
  refine base_turn (S := S) (b := b) hfits hsize (a := { a with requested := a.requested.add 1 })
    hanswers hls (fun v hv => GeneratingStream.runs_sent hbase.alive hv) hat.lt ?_ hbase.alive hbusy
    ?_ ?_ ?_ ?_ ?_ rfl rfl hloop hruns
  · refine ⟨?_, ?_, ?_, ?_, ?_, hhere.running, hhere.confirmed⟩
    · simp only [hsame, hhere.alive]
    · simp only [hsame, hhere.locked]
    · simp only [hsame, hhere.subscription]
    · simp only [hsame, hhere.demand]
    · simp only [hsame, hhere.left]
  · simp only [hsame, hbase.asked]
  · simp only [hsame, hbase.wrapped]
  · simp only [RequestBalance.balance_add]
    omega
  · simp only [hsame, hcreated]
  · simp only [hsame, hempty]

/-- It has returned from a value that was in the buffer. -/
theorem value_leads (hfits : publisher.bufferSize < kMax) {coming : List (StatusOr T)}
    (hhere : Here x st.state b coming) (hupstream : Upstream S st.state st.parts [] coming)
    (hcreated : st.state.created = false) (hroom : st.state.buffer.length < publisher.bufferSize)
    (hdelivering : st.state.delivering = true) (hstack : st.stack = [.own (.delivered false), .env])
    (hloop : b.gen.generating = true)
    (hruns : ∀ w, Runs (x.patient false) (b, .goto .generate) w → Runs (x.patient false) r' w) :
    Leads subscriptionCheck (Goes S publisher [] r') (back st) := by
  refine Leads.own hstack ?_
  have hcode : (component T publisher).resume st.views st.state (.delivered false) =
      st.state.maybeFill publisher st.views .filled := by
    change st.state.delivered publisher st.views false = _
    rw [delivered, if_neg (Bool.eq_false_iff.mp hhere.alive), if_neg Bool.false_ne_true]
  change Leads subscriptionCheck _ (perform subscriptionCheck { st with stack := [.env] }
    ((component T publisher).resume st.views st.state (.delivered false)))
  rw [hcode]
  refine refill_leads (S := S) { st with stack := [.env] } hfits hhere hupstream hroom
    hdelivering fun st' coming' hfilled => ?_
  rcases hfilled with ⟨⟨buffer, balance, wrapped, hsame⟩, hup, hleft, hfull, hle, hstack'⟩
  have halive : st'.state.hasEnded = false := by
    rw [hsame]
    exact hhere.alive
  -- after the refill there is something to deliver
  have hgo : st'.state.filled = (st'.state, .goto .deliver) := by
    rw [filled, if_neg (Bool.eq_false_iff.mp halive), if_neg]
    rw [List.isEmpty_iff]
    exact hfull
  rw [hgo]
  refine Leads.go ?_
  change Leads subscriptionCheck _ (perform subscriptionCheck st' st'.state.deliver)
  refine deliver_turn (S := S) ⟨halive, ?_, ?_, ?_, hleft, hhere.running, hhere.confirmed⟩ hup ?_
      hfull hle ?_ hstack'
    hloop hruns
  · rw [hsame]
    exact hhere.locked
  · rw [hsame]
    exact hhere.subscription
  · rw [hsame]
    exact hhere.demand
  · rw [hsame]
    exact hcreated
  · rw [hsame]
    exact hdelivering

/-- It has returned from the end, when the base is not there any more. -/
theorem last_leads (halive : st.state.hasEnded = false) (hcreated : st.state.created = false)
    (hwrapped : st.state.wrapped = false) (hstack : st.stack = [.own (.delivered true), .env])
    (hruns : Runs (x.patient false) r'
      ({ b with finished := true, gen := { b.gen with hasEnded := true } }, .out .destroy .done)) :
    Leads subscriptionCheck (Goes S publisher [] r') (back st) := by
  refine Leads.own hstack ?_
  have hcode : (component T publisher).resume st.views st.state (.delivered true) =
      ({ st.state with delivering := false, selfLock := false, hasEnded := true },
        .out .destroy .done) := by
    change st.state.delivered publisher st.views true = _
    rw [delivered, if_neg (Bool.eq_false_iff.mp halive), if_pos rfl, release]
    simp only [hwrapped, hcreated, halive, Bool.or_self, Bool.false_eq_true, if_false]
  change Leads subscriptionCheck _ (perform subscriptionCheck { st with stack := [.env] }
    ((component T publisher).resume st.views st.state (.delivered true)))
  rw [hcode]
  exact Leads.stop rfl ⟨_, hruns, .out _ _ _ _ _ (.destroying _ _ rfl rfl rfl)⟩

/-- It has returned from the end that the base is publishing. The base is
    destroyed, and at last the call that has confirmed the subscription returns. -/
theorem lastPassing_leads {q : StreamStage} (hbase : AtBase S q a [.sent true, .done] st.parts)
    (halive' : a.hasEnded = false) (halive : st.state.hasEnded = false)
    (hwrapped : st.state.wrapped = true) (hcreated : st.state.created = true)
    (hstack : st.stack = .own (.delivered true) :: .part 0 :: bottom)
    (hruns : Runs (x.patient false) r'
      ({ b with finished := true, gen := { b.gen with hasEnded := true } }, .out .destroy .done)) :
    Leads subscriptionCheck (Goes S publisher [] r') (back st) := by
  have hfail : ∀ q, (streamProtocol T late False).broken q →
      ∀ (st : St publisher A) msg, Goes S publisher [] r' (st, .fail msg) :=
    fun q hbroken => hbroken.2.elim
  refine Leads.own hstack ?_
  have hcode : (component T publisher).resume st.views st.state (.delivered true) =
      ({ st.state with delivering := false, selfLock := false }, .ret) := by
    change st.state.delivered publisher st.views true = _
    rw [delivered, if_neg (Bool.eq_false_iff.mp halive), if_pos rfl, release]
    simp only [hwrapped, Bool.true_or, Bool.or_true, if_true]
  change Leads subscriptionCheck _ (perform subscriptionCheck { st with stack := .part 0 :: bottom }
    ((component T publisher).resume st.views st.state (.delivered true)))
  rw [hcode]
  refine Leads.ret ?_
  refine Leads.part_out (S := S) (i := ()) rfl hbase (GeneratingStream.runs_last halive') (hfail _)
    fun st1 hmoves hat => ?_
  have hsame := hmoves.state
  have hreleased : (component T publisher).said st1.views st1.state 0 () .destroy =
      ({ st1.state with wrapped := false }, .ret) := by
    change release { st1.state with wrapped := false } = _
    rw [release, hsame]
    simp only [hcreated, Bool.or_true, Bool.true_or, if_true]
  change Leads subscriptionCheck _ (perform subscriptionCheck st1
    ((component T publisher).said st1.views st1.state 0 () .destroy))
  rw [hreleased]
  refine Leads.ret ?_
  refine Leads.part_ret (S := S) (i := ()) hmoves.stack_eq hat GeneratingStream.runs_done (hfail _)
    fun st2 hmoves' hat' => ?_
  refine Leads.own hmoves'.stack_eq (Leads.ret ?_)
  refine Leads.part_ret (S := S) (i := ()) rfl hat' GeneratingStream.runs_done (hfail _)
    fun st3 hmoves2 _ => ?_
  -- nobody holds the stream any more
  have hlast : (component T publisher).resume st3.views st3.state .subscribed =
      ({ st3.state with created := false, hasEnded := true }, .out .destroy .done) := by
    change release { st3.state with created := false } = _
    rw [release, hmoves2.state]
    simp only [hmoves'.state, hsame, halive, Bool.or_self, Bool.false_eq_true, if_false]
  refine Leads.own hmoves2.stack_eq ?_
  change Leads subscriptionCheck _ (perform subscriptionCheck { st3 with stack := [.env] }
    ((component T publisher).resume st3.views st3.state .subscribed))
  rw [hlast]
  exact Leads.stop rfl ⟨_, hruns, .out _ _ _ _ _ (.destroying _ _ rfl rfl rfl)⟩

end Turns

section Simulation

variable {S : Simulation subscriptionCheck (streamProtocol T late False) A x.stream}
  {q : Bool} {st : St publisher A} {b : PatientGenerator T}
  {ks : List (ClosedPoint T × PatientGenerator.Point)}

/-- What is read of the whole. -/
theorem Tracks.look (h : Tracks S q st b ks) : st.state.hasEnded = b.gen.hasEnded := by
  cases h with
  | fresh _ hstate => rw [hstate]
  | confirming _ _ _ hhere => rw [hhere.alive, hhere.running]
  | idle _ _ _ hhere => rw [hhere.alive, hhere.running]
  | value _ _ _ hhere => rw [hhere.alive, hhere.running]
  | passing _ _ _ hhere => rw [hhere.alive, hhere.running]
  | last _ _ halive _ _ _ hrunning => rw [halive, hrunning]
  | lastPassing _ _ _ _ _ _ halive _ _ _ hrunning => rw [halive, hrunning]
  | destroying _ _ hended hended' => rw [hended, hended']
  | dead _ _ hended hended' => rw [hended, hended']

/-- A request while the loop of the other machine is running is noted, and that
    is all. -/
theorem busy_request {n : Nat} (hquiet : st.state.delivering = true ∨ st.state.buffer = [])
    (hloop : b.gen.generating = true)
    (hnext : Tracks S true { st with
        state := { st.state with requestBalance := st.state.requestBalance.add n }
        log := .call (.request n) :: st.log } { b with gen :=
            { b.gen with requested := b.gen.requested.add n } } ks) :
    Leads subscriptionCheck (Goes S publisher ks ((x.patient false).call noViews b (.request n)))
      (Nest.call subscriptionCheck st (.request n)) := by
  have hdone : Quiet { st.state with requestBalance := st.state.requestBalance.add n } ∨
      st.state.delivering = false ∧ st.state.buffer = [] := by
    by_cases hbusy : st.state.delivering = true
    · exact Or.inl (Or.inl hbusy)
    · rw [Bool.not_eq_true] at hbusy
      rcases hquiet with htrue | hempty
      · exact absurd (hbusy.symm.trans htrue) Bool.false_ne_true
      · exact Or.inr ⟨hbusy, hempty⟩
  refine maybeDeliver_leads { st with
    stack := .env :: st.stack, log := .call (.request n) :: st.log } hdone (Leads.env rfl ?_)
  exact ⟨_, Listing.patient_busy n hloop, .ret _ _ hnext⟩

/-- A request at rest starts the loop. -/
theorem idle_request {n : Nat} {coming : List (StatusOr T)} (hhere : Here x st.state b coming)
    (hupstream : Upstream S st.state st.parts [] coming) (hcreated : st.state.created = false)
    (hfull : st.state.buffer ≠ []) (hroom : st.state.buffer.length ≤ publisher.bufferSize)
    (hdelivering : st.state.delivering = false) (hstack : st.stack = [])
    (hidle : b.gen.generating = false) :
    Leads subscriptionCheck (Goes S publisher [] ((x.patient false).call noViews b (.request n)))
      (Nest.call subscriptionCheck st (.request n)) := by
  have hcode : st.state.request n = ({ st.state with
      requestBalance := st.state.requestBalance.add n, delivering := true }, .goto .deliver) := by
    simp only [request, maybeDeliver, hdelivering, Bool.false_eq_true, if_false]
  change Leads subscriptionCheck _ (perform subscriptionCheck
    { st with stack := .env :: st.stack, log := .call (.request n) :: st.log } (st.state.request n))
  rw [hcode]
  refine Leads.go ?_
  refine deliver_turn (S := S) (b := { b with gen := { b.gen with
    requested := b.gen.requested.add n, generating := true } }) ⟨hhere.alive, hhere.locked,
      hhere.subscription, congrArg (fun c => c.add n) hhere.demand, hhere.left, hhere.running,
          hhere.confirmed⟩
    (hupstream.congr rfl rfl) hcreated hfull hroom rfl (congrArg _ hstack) rfl fun w hw => ?_
  exact Listing.patient_request hidle hw

/-- A request is answered as by the generator. -/
theorem Tracks.request (h : Tracks S q st b ks) (n : Nat) (hq : q = true)
    (hgate : subscriptionCheck st.state.hasEnded (.request n) = none) :
    Leads subscriptionCheck (Goes S publisher ks ((x.patient false).call noViews b (.request n)))
      (Nest.call subscriptionCheck st (.request n)) := by
  -- both balances grow by the same
  have hmore : ∀ {s : PrefetchingStream T} {b : PatientGenerator T} {coming},
      Here x s b coming → Here x { s with requestBalance := s.requestBalance.add n }
        { b with gen := { b.gen with requested := b.gen.requested.add n } } coming := by
    intro s b coming hhere
    exact ⟨hhere.alive, hhere.locked, hhere.subscription,
      congrArg (fun c => c.add n) hhere.demand, hhere.left, hhere.running, hhere.confirmed⟩
  -- while an event is being delivered, a request only adds to the balance
  cases h with
  | fresh => cases hq
  | confirming a _ _ hhere hbase hquiet hserved hcreated hempty hdelivering hstack hloop
      hunfinished =>
      have hhere' := hmore hhere
      refine busy_request (Or.inr hempty) hloop ?_
      exact .confirming a { st with
          state := { st.state with requestBalance := st.state.requestBalance.add n }
          log := .call (.request n) :: st.log } _ hhere'
        ⟨hbase.base, hbase.alive, hbase.asked, hbase.wrapped⟩ hquiet hserved hcreated hempty
        hdelivering hstack hloop hunfinished
  | idle coming _ _ hhere hupstream hcreated hfull hroom hdelivering hstack _ hidle =>
      exact idle_request hhere hupstream hcreated hfull hroom hdelivering hstack hidle
  | value coming _ _ hhere hupstream hcreated hroom hdelivering hstack hloop =>
      exact busy_request (Or.inl hdelivering) hloop (.value coming _ _ (hmore hhere)
        (hupstream.congr rfl rfl) hcreated hroom hdelivering hstack hloop)
  | passing a _ _ hhere hbase hbusy hasked hcreated hempty hdelivering hstack hloop =>
      exact busy_request (Or.inl hdelivering) hloop (.passing a _ _ (hmore hhere)
        ⟨hbase.base, hbase.alive, hbase.asked, hbase.wrapped⟩ hbusy hasked hcreated hempty
        hdelivering hstack hloop)
  | last _ _ halive hcreated hwrapped hstack hrunning hconfirmed hloop hdelivering =>
      exact busy_request (Or.inl hdelivering) hloop (.last _ _ halive hcreated hwrapped hstack
        hrunning hconfirmed hloop hdelivering)
  | lastPassing q a _ _ hbase hbusy halive hwrapped hcreated hstack hrunning hconfirmed hloop
      hdelivering =>
      exact busy_request (Or.inl hdelivering) hloop (.lastPassing q a _ _ hbase hbusy halive
        hwrapped hcreated hstack hrunning hconfirmed hloop hdelivering)
  | destroying _ _ hended => simp only [hended, subscriptionCheck, if_true, reduceCtorEq] at hgate
  | dead _ _ hended => simp only [hended, subscriptionCheck, if_true, reduceCtorEq] at hgate

/-- The stream is subscribed, and subscribes to its base. -/
theorem subscribe_leads (hsize : 0 < publisher.bufferSize) (hstate : st.state = {})
    (hparts : st.parts = []) (hstack : st.stack = []) :
    Leads subscriptionCheck
      (fun v => ∃ v', Runs (x.patient false)
        ((x.patient false).call noViews (x.patient false).start .subscribe) v' ∧
        Match (patientProtocol T) (A := closed publisher A) (B := x.patient false) (Tracks S)
            false [] v v')
      (Nest.call subscriptionCheck st .subscribe) := by
  -- the stream is made, and its upstream with it
  have hcode : Nest.call subscriptionCheck st .subscribe =
      ({ st with
          state := { created := true, selfLock := true, wrapped := true }
          parts := st.parts ++ [{ kind := (), state := A.start, waiting := [] }]
          stack := .own .subscribed :: .env :: st.stack
          log := .ask st.parts.length .subscribe :: .call .subscribe :: st.log },
        .goto (.ask st.parts.length .subscribe)) := by
    have hmake : st.state.subscribe publisher =
        ({ created := true, selfLock := true, wrapped := true },
            .make () .subscribe .subscribed) := by
      rw [subscribe, if_neg (Nat.pos_iff_ne_zero.mp hsize), hstate]
    rw [Nest.call]
    simp only [hmake]
    rfl
  rw [hcode]
  have hnew := At.create (N := fun _ : Unit => A) (i := ()) S st.parts
  rw [hparts] at hnew ⊢
  refine Leads.ask_out hnew rfl rfl GeneratingStream.runs_subscribe
    (fun hbroken => hbroken.2.elim) fun st1 hmoves hat => ?_
  have hsame := hmoves.state
  have hconfirm : (component T publisher).said st1.views st1.state 0 () .onSubscribe =
      ({ st1.state with upstreamSubscription := some 0 }, .out .onSubscribe .confirmed) := by
    change st1.state.onSubscribe 0 = _
    rw [onSubscribe, hsame]
    rfl
  change Leads subscriptionCheck _ (perform subscriptionCheck st1
    ((component T publisher).said st1.views st1.state 0 () .onSubscribe))
  rw [hconfirm]
  refine Leads.stop rfl ⟨_, Runs.stop (A := (x.patient false)) _ rfl, .out _ _ _ _ _ ?_⟩
  refine .confirming { state := x.values } _
    { gen := { state := x.values, generating := true }, subscribing := true }
    ?_ ?_ rfl rfl ?_ ?_ ?_ ?_ rfl rfl
  · refine ⟨?_, ?_, rfl, ?_, ?_, rfl, rfl⟩
    · simp only [hsame]
    · simp only [hsame]
    · simp only [hsame]
    · simp only [hsame, List.nil_append]
  · refine ⟨hat, rfl, ?_, ?_⟩
    · simp only [hsame]
    · simp only [hsame]
  · simp only [hsame]
  · simp only [hsame]
  · simp only [hsame]
  · simp only [hmoves.stack_eq, hstack, bottom, List.tail_cons, List.length_nil]

/-- The subscriber returns. -/
theorem Tracks.resume (hfits : publisher.bufferSize < kMax) (hsize : 0 < publisher.bufferSize)
    {k : ClosedPoint T} {l : PatientGenerator.Point} (h : Tracks S q st b ((k, l) :: ks)) :
    k = .reply ∧ ks = [] ∧ q = true ∧
      Leads subscriptionCheck (Goes S publisher [] ((x.patient false).resume noViews b l))
          (back st) := by
  generalize hks : (k, l) :: ks = ks' at h
  have hpoint : ∀ {l'}, (k, l) :: ks = [(.reply, l')] → k = .reply ∧ ks = [] ∧ l = l' := by
    intro l' heq
    rcases List.cons.inj heq with ⟨hhead, htail⟩
    rcases Prod.mk.inj hhead with ⟨hk, hl⟩
    exact ⟨hk, htail, hl⟩
  -- each place is left by the call that was made there
  cases h with
  | fresh => cases hks
  | confirming a _ _ hhere hbase hquiet hserved hcreated hempty hdelivering hstack hloop
      hunfinished =>
      rcases hpoint hks with ⟨hk, htail, rfl⟩
      refine ⟨hk, htail, rfl, confirmed_leads (b := { b with subscribing := false })
          hfits hsize hhere
        hbase hquiet hserved hcreated hempty hdelivering hstack hloop fun w hw => ?_⟩
      change Runs (x.patient false) (b.confirmed false) w
      have hcode : b.confirmed false = ({ b with subscribing := false }, .goto .generate) := by
        simp only [PatientGenerator.confirmed, hunfinished, Bool.false_eq_true, if_false]
      rw [hcode]
      exact hw
  | idle => cases hks
  | value coming _ _ hhere hupstream hcreated hroom hdelivering hstack hloop =>
      rcases hpoint hks with ⟨hk, htail, rfl⟩
      refine ⟨hk, htail, rfl, value_leads hfits hhere hupstream hcreated hroom hdelivering
          hstack hloop
        fun w hw => ?_⟩
      exact hw
  | passing a _ _ hhere hbase hbusy hasked hcreated hempty hdelivering hstack hloop =>
      rcases hpoint hks with ⟨hk, htail, rfl⟩
      refine ⟨hk, htail, rfl, passing_leads hfits hsize hhere hbase hbusy hasked hcreated
          hempty hstack
        hloop fun w hw => ?_⟩
      exact hw
  | last _ _ halive hcreated hwrapped hstack hrunning hconfirmed hloop hdelivering =>
      rcases hpoint hks with ⟨hk, htail, rfl⟩
      exact ⟨hk, htail, rfl, last_leads halive hcreated hwrapped hstack
        (Listing.patient_last hconfirmed)⟩
  | lastPassing q a _ _ hbase hbusy halive hwrapped hcreated hstack hrunning hconfirmed hloop
      hdelivering =>
      rcases hpoint hks with ⟨hk, htail, rfl⟩
      exact ⟨hk, htail, rfl, lastPassing_leads hbase hbusy halive hwrapped hcreated hstack
        (Listing.patient_last hconfirmed)⟩
  | destroying _ _ hended hended' hstack =>
      rcases hpoint hks with ⟨hk, htail, rfl⟩
      refine ⟨hk, htail, rfl, Leads.own hstack (Leads.ret (Leads.env rfl ?_))⟩
      exact ⟨_, Runs.stop (A := x.patient false) _ rfl, .ret _ _ (.dead _ _ hended hended' rfl)⟩
  | dead => cases hks

/-- `Prefetch` stands for the generator that begins when it is confirmed, of the
    listing that its base stands for. -/
def simulation (hfits : publisher.bufferSize < kMax) (hsize : 0 < publisher.bufferSize)
    (S : Simulation subscriptionCheck (streamProtocol T late False) A x.stream) :
    Simulation subscriptionCheck (patientProtocol T) (closed publisher A) (x.patient false) where
  Rel := Tracks S
  start := .fresh _ rfl rfl rfl
  look _ _ _ _ h := h.look
  call := by
    intro q st b ks c h hallow hgate
    refine Leads.answers ?_
    cases c with
    | subscribe =>
        have hfresh : q = false := hallow
        subst hfresh
        cases h with
        | fresh _ hstate hparts hstack => exact subscribe_leads hsize hstate hparts hstack
    | request n =>
        have hq : q = true := hallow.1
        subst hq
        exact h.request n rfl hgate
    | cancel => exact hallow.elim
  resume := by
    intro q st b k l ks h
    rcases h.resume hfits hsize with ⟨rfl, rfl, rfl, hleads⟩
    exact Leads.answers hleads

end Simulation

/-- `Prefetch` over a safe pipeline delivers its listing. -/
theorem transparent (publisher : PrefetchingPublisher)
    (hfits : publisher.bufferSize < kMax) (hsize : 0 < publisher.bufferSize) (p : Pipeline T)
    (hsafe : p.Safe) (st : Open (closed publisher p.machine))
    (h : Open.Reach subscriptionCheck (LogRules Patient) st) : p.listing.Behaves False st := by
  rcases p.exists_simulation_safe hsafe with ⟨S⟩
  exact Listing.behaves_of_patient (simulation hfits hsize S) st h

/-- With a buffer for two events, which is filled up when it is empty. -/
theorem transparent_tens :
    ∃ st : Open (closed ⟨2, 0, by decide⟩ Pipeline.tens.machine),
      received st.log = [.value 1, .value 10, .value 2, .value 20, .done] ∧
        Pipeline.tens.listing.Behaves False st := by
  rcases exists_reach_of_converse (A := closed ⟨2, 0, by decide⟩ Pipeline.tens.machine)
    subscriptionCheck Patient 60
    [.call .subscribe, .call (.request 1), .reply, .reply, .call (.request 5), .call (.request 1),
      .reply, .reply, .reply, .reply, .reply]
    (fun st => decide (received st.log = [.value 1, .value 10, .value 2, .value 20, .done]))
    (by decide +kernel) with ⟨st, hreach, htest⟩
  exact ⟨st, of_decide_eq_true htest,
    transparent _ (by decide) (by decide) Pipeline.tens Pipeline.tens_safe st hreach⟩

end PrefetchingStream

end RxCppUniq
