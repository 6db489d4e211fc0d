import RxCppUniq.Flow.PatientRuns
import RxCppUniq.Flow.Pipelines
import RxCppUniq.Reactive.Concat

/-!
# Concat Appends

`Concat` of two streams which stand for listings delivers the one listing and
then the other, unless the first fails, to a subscriber that does not cancel. The
second stream is subscribed to and asked from within the call that publishes
the `Done` of the first, which returns when the second has served what the first
did not.

The object is held by its wrappers, by the lock on itself, and by the call of
`Subscribe`. When the end was published in `OnSubscribe` it is destroyed after
that has returned.

## Main definitions

* `ConcatStream.closed`: The stream with the two streams.
* `ConcatStream.left`: What the subscriber has not received.
* `ConcatStream.Under`: Who waits for the loop of a stream to stop.
* `ConcatStream.Tracks`: Where the two streams are.

## Theorems

* `ConcatStream.loop_leads`: A stream publishes what is asked for.
* `ConcatStream.switch_leads`: The first is done, and the second goes on.
* `ConcatStream.simulation`: `Concat` stands for one generator.
* `ConcatStream.appends`: `Concat` of two pipelines delivers their listings.
-/

namespace RxCppUniq

open Theory Theory.Machine Theory.Nest

open GeneratingStream (NoParts)

variable {T : Type}

namespace Half

/-- The number of a stream among the parts. -/
def number : Half → Nat
  | .first => 0
  | .second => 1

def isFirst : Half → Bool
  | .first => true
  | .second => false

end Half

namespace ConcatStream

variable {A : Half → Operator T Empty NoParts} {x : Half → Listing T} {late : Prop}

/-- The stream with the two streams it subscribes to. -/
abbrev closed (A : Half → Operator T Empty NoParts) : Operator T Empty NoParts :=
  nest subscriptionCheck (component T) A

abbrev St (A : Half → Operator T Empty NoParts) :=
  Nest.State (component T) A

abbrev ClosedPoint (T : Type) :=
  Nest.Point Call Half Point (fun _ : Half => Signal T)

/-- One listing after the other. -/
abbrev both (x : Half → Listing T) : Listing T :=
  (x .first).andThen (x .second)

/-- What is left when these values of one of the streams are. -/
def left (x : Half → Listing T) (vs : List T) : Half → Listing T
  | .first => ((x .first).rest vs).andThen (x .second)
  | .second => (x .second).rest vs

section Left

variable {h : Half} {v : T} {vs ws : List T}

/-- A value of the stream is the next. -/
theorem left_value (hleft : left x (v :: vs) h = (both x).rest ws) :
    ∃ ws', ws = v :: ws' ∧ left x vs h = (both x).rest ws' := by
  have hvalues : (left x (v :: vs) h).values = ws := congrArg Listing.values hleft
  have hending := Listing.ending_of_rest hleft
  cases h with
  | first =>
      have hcons := Listing.andThen_cons (x .first) (x .second) v vs
      refine ⟨(left x vs .first).values, ?_, Listing.ext rfl ?_⟩
      · exact hvalues.symm.trans (congrArg Listing.values hcons)
      · exact (congrArg Listing.ending hcons).symm.trans hending
  | second => exact ⟨vs, hvalues.symm, Listing.ext rfl hending⟩

/-- The status of the stream is the last event. -/
theorem left_status (hlast : h = .second ∨ (x h).ending.code ≠ .outOfRange)
    (hleft : left x [] h = (both x).rest ws) :
    ws = [] ∧ (both x).ending = (x h).ending := by
  have hstream : left x [] h = (x h).rest [] := by
    cases h with
    | second => rfl
    | first =>
        rw [left, Listing.andThen_error]
        exact hlast.resolve_left (by simp only [reduceCtorEq, not_false_eq_true])
  rw [hstream] at hleft
  exact ⟨(congrArg Listing.values hleft).symm, (Listing.ending_of_rest hleft).symm⟩

/-- The other stream goes on after a `Done`. -/
theorem left_switch (hdone : (x .first).ending.code = .outOfRange)
    (hleft : left x [] .first = (both x).rest ws) :
    left x (x .second).values .second = (both x).rest ws := by
  rw [left, Listing.andThen_done _ _ hdone] at hleft
  exact hleft

end Left

/-- What waits for the subscriber to return from `OnSubscribe`. -/
def base (sub : Bool) : List (Frame Point) :=
  if sub then [.own .done, .part 0, .own .subscribed, .env] else []

/-- What waits for a request to return. -/
def asked (sub : Bool) : List (Frame Point) :=
  .own .done :: .env :: base sub

/-- Where the first stream waits for the same. -/
def below (sub : Bool) : List GeneratingStream.Point :=
  if sub then [.done] else []

/-- The call of `OnSubscribe`. -/
def rests (sub : Bool) : List (ClosedPoint T × PatientGenerator.Point) :=
  if sub then [(.reply, .confirmed)] else []

section Tracks

variable (S : ∀ h, Simulation subscriptionCheck (streamProtocol T late False) (A h) (x h).stream)

/-- One of the streams stands for its listing. -/
abbrev AtHalf (h : Half) (q : StreamStage) (a : GeneratingStream (List T))
    (ls : List GeneratingStream.Point) (parts : List (Part A)) : Prop :=
  At (N := A) (i := h) (S h) q a ls h.number parts

/-- The first stream waits for the call of `OnSubscribe`. -/
def Bottom (sub : Bool) (parts : List (Part A)) : Prop :=
  sub = true → ∃ q a, AtHalf S .first q a [.done] parts

/-- Where a stream waits below its loop. -/
inductive Resting (sub : Bool) (parts : List (Part A)) : Half → List GeneratingStream.Point → Prop
  where
  | first : Resting sub parts .first (below sub)
  | second (hbottom : Bottom S sub parts) : Resting sub parts .second []

/-- Who waits for the loop of a stream to stop, and how many wrappers there
    are. -/
inductive Under (sub : Bool) (parts : List (Part A)) :
    Half → List (Frame Point) → List GeneratingStream.Point → Nat → Prop where
  | plain (h : Half) (ls : List GeneratingStream.Point) (hrest : Resting S sub parts h ls) :
      Under sub parts h (asked sub) ls 1
  /-- The first stream is still publishing its `Done`. -/
  | nested (q : StreamStage) (a : GeneratingStream (List T))
      (hat : AtHalf S .first q a (.sent true :: below sub) parts) (halive : a.hasEnded = false) :
      Under sub parts .second (.own .done :: .part 1 :: .own .done :: .part 0 :: asked sub)
          [.done] 2

/-- One of the streams is running. -/
structure Live (h : Half) (s : ConcatStream) (b : PatientGenerator T)
    (a : GeneratingStream (List T)) (wrappers : Nat) : Prop where
  alive : s.hasEnded = false
  subscription : s.upstreamSubscription = some h.number
  locked : s.selfLock = true
  created : s.created = b.subscribing
  wrapped : s.wrappers = wrappers
  upstream : a.hasEnded = false
  running : b.gen.hasEnded = false

/-- It has not published its status yet. -/
structure Running (x : Half → Listing T) (h : Half) (s : ConcatStream) (b : PatientGenerator T)
    (a : GeneratingStream (List T)) (wrappers : Nat) : Prop extends Live h s b a wrappers where
  continueWith : s.continueWith = h.isFirst
  demand : s.requestBalance = b.gen.requested
  asked : a.requested = b.gen.requested
  left : left x a.state h = (both x).rest b.gen.state
  unfinished : b.finished = false

/-- The streams have got as far as the generator. -/
inductive Tracks : Bool → St A → PatientGenerator T →
    List (ClosedPoint T × PatientGenerator.Point) → Prop where
  | fresh (st : St A) (hstate : st.state = {}) (hparts : st.parts = []) (hstack : st.stack = []) :
      Tracks false st { gen := { state := (both x).values } } []
  | idle (h : Half) (a : GeneratingStream (List T)) (ls : List GeneratingStream.Point) (st : St A)
      (b : PatientGenerator T) (hrun : Running x h st.state b a 1)
      (hrest : Resting S b.subscribing st.parts h ls) (hat : AtHalf S h .live a ls st.parts)
      (hlength : h = .first → st.parts.length = 1) (hquiet : a.generating = false)
      (hidle : b.gen.generating = false) (hstack : st.stack = base b.subscribing) :
      Tracks true st b (rests b.subscribing)
  /-- The subscriber handles a value. -/
  | value (h : Half) (a : GeneratingStream (List T)) (under : List (Frame Point))
      (ls : List GeneratingStream.Point) (w : Nat) (st : St A) (b : PatientGenerator T)
      (hrun : Running x h st.state b a w) (hunder : Under S b.subscribing st.parts h under ls w)
      (hat : AtHalf S h .live a (.sent false :: ls) st.parts)
      (hlength : h = .first → st.parts.length = 1) (hbusy : a.generating = true)
      (hloop : b.gen.generating = true)
      (hstack : st.stack = .own .done :: .part h.number :: under) :
      Tracks true st b ((.reply, .sent false) :: rests b.subscribing)
  /-- It handles the end. -/
  | ending (h : Half) (q : StreamStage) (a : GeneratingStream (List T))
      (under : List (Frame Point)) (ls : List GeneratingStream.Point) (w : Nat) (st : St A)
      (b : PatientGenerator T) (hlive : Live h st.state b a w)
      (hunder : Under S b.subscribing st.parts h under ls w)
      (hat : AtHalf S h q a (.sent true :: ls) st.parts) (hq : q ≠ .fresh)
      (hbusy : a.generating = true) (hloop : b.gen.generating = true)
      (hstack : st.stack = .own .selfDestruct :: .part h.number :: under) :
      Tracks true st b ((.reply, .sent true) :: rests b.subscribing)
  /-- It has handled the end in `OnSubscribe`. -/
  | lingering (p : Nat) (st : St A) (b : PatientGenerator T)
      (hsubscription : st.state.upstreamSubscription = some p) (hview : st.views p = true)
      (halive : st.state.hasEnded = false) (hunlocked : st.state.selfLock = false)
      (hunwrapped : st.state.wrappers = 0) (hcreated : st.state.created = true)
      (hbottom : Bottom S true st.parts) (hstack : st.stack = base true)
      (hsubscribing : b.subscribing = true) (hfinished : b.finished = true)
      (hloop : b.gen.generating = true) (hrunning : b.gen.hasEnded = false) :
      Tracks true st b [(.reply, .confirmed)]
  | destroying (st : St A) (b : PatientGenerator T) (hended : st.state.hasEnded = true)
      (hended' : b.gen.hasEnded = true) (hstack : st.stack = [.own .done, .env]) :
      Tracks true st b [(.reply, .done)]
  /-- The last stream that is destroyed takes the object with it. -/
  | collapsing (h : Half) (q : StreamStage) (a : GeneratingStream (List T)) (st : St A)
      (b : PatientGenerator T) (hat : AtHalf S h q a [.done] st.parts)
      (hended : st.state.hasEnded = true) (hended' : b.gen.hasEnded = true)
      (hstack : st.stack = [.own .done, .part h.number, .own .done, .env]) :
      Tracks true st b [(.reply, .done)]
  | dead (st : St A) (b : PatientGenerator T) (hended : st.state.hasEnded = true)
      (hended' : b.gen.hasEnded = true) (hstack : st.stack = []) : Tracks true st b []

/-- The whole goes on to where it has done the same. -/
def Goes (ks : List (ClosedPoint T × PatientGenerator.Point))
    (r : Machine.Outcome ((both x).patient true)) (v : Machine.Outcome (closed A)) : Prop :=
  ∃ v', Runs ((both x).patient true) r v' ∧
    Match (patientProtocol T) (A := closed A) (B := (both x).patient true) (Tracks S) true ks v v'

end Tracks

section Under

variable {S : ∀ h, Simulation subscriptionCheck (streamProtocol T late False) (A h) (x h).stream}
  {h : Half} {sub : Bool} {under : List (Frame Point)} {ls : List GeneratingStream.Point}
  {w : Nat} {parts parts' : List (Part A)} {st : St A}

/-- The second stream goes on. -/
theorem Bottom.others (hbottom : Bottom S sub parts)
    (hothers : ∀ p, p ≠ 1 → parts'[p]? = parts[p]?) : Bottom S sub parts' := by
  intro hsub
  rcases hbottom hsub with ⟨q, a, u, hget, hu⟩
  exact ⟨q, a, u, (hothers 0 Nat.zero_ne_one).trans hget, hu⟩

theorem Resting.others (hrest : Resting S sub parts h ls)
    (hothers : ∀ p, p ≠ h.number → parts'[p]? = parts[p]?) : Resting S sub parts' h ls := by
  cases hrest with
  | first => exact .first
  | second hbottom => exact .second (hbottom.others hothers)

theorem Under.others (hunder : Under S sub parts h under ls w)
    (hothers : ∀ p, p ≠ h.number → parts'[p]? = parts[p]?) : Under S sub parts' h under ls w := by
  cases hunder with
  | plain _ _ hrest => exact .plain _ _ (hrest.others hothers)
  | nested q a hat halive =>
      rcases hat with ⟨u, hget, hu⟩
      exact .nested q a ⟨u, (hothers 0 Nat.zero_ne_one).trans hget, hu⟩ halive

theorem Under.pos (hunder : Under S sub parts h under ls w) : w ≠ 0 := by
  cases hunder with
  | plain _ _ _ => exact Nat.one_ne_zero
  | nested _ _ _ _ => exact Nat.succ_ne_zero 1

/-- A stream is destroyed, and the object is held by something else. -/
theorem release_leads {Inv : Nest.Result (component T) A → Prop} (p : Nat) (i : Half)
    (hheld : (st.state.selfLock || st.state.wrappers - 1 != 0 || st.state.created ||
      st.state.hasEnded) = true)
    (hnext : Leads subscriptionCheck Inv
      (back { st with state := { st.state with wrappers := st.state.wrappers - 1 } })) :
    Leads subscriptionCheck Inv
      (perform subscriptionCheck st ((component T).said st.views st.state p i .destroy)) := by
  change Leads subscriptionCheck Inv
    (perform subscriptionCheck st (release { st.state with wrappers := st.state.wrappers - 1 }))
  rw [release, if_pos hheld]
  exact Leads.ret hnext

end Under

section Turns

variable {S : ∀ h, Simulation subscriptionCheck (streamProtocol T late False) (A h) (x h).stream}
  {h : Half} {q : StreamStage} {a : GeneratingStream (List T)} {under : List (Frame Point)}
  {ls : List GeneratingStream.Point} {w : Nat} {st : St A} {b : PatientGenerator T}
  {r' : Machine.Outcome ((both x).patient true)}

/-- Nothing more is asked for, and the calls return. -/
theorem idle_leads (hrun : Running x h st.state b a w)
    (hunder : Under S b.subscribing st.parts h under ls w) (hat : AtHalf S h .live a ls st.parts)
    (hlength : h = .first → st.parts.length = 1) (hquiet : a.generating = false)
    (hidle : b.gen.generating = false) (hstack : st.stack = under)
    (hruns : Runs ((both x).patient true) r' (b, .ret)) :
    Leads subscriptionCheck (Goes S (rests b.subscribing) r') (back st) := by
  have hfail : ∀ q, (streamProtocol T late False).broken q →
      ∀ (st : St A) msg, Goes S (rests b.subscribing) r' (st, .fail msg) :=
    fun q hbroken => hbroken.2.elim
  cases hunder with
  | plain _ _ hrest =>
      refine Leads.own hstack (Leads.ret (Leads.env rfl ⟨_, hruns, .ret _ _ ?_⟩))
      exact .idle h a ls _ b hrun hrest hat hlength hquiet hidle rfl
  | nested q' a' hat' halive' =>
      -- the first stream is destroyed while the lock is held
      refine Leads.own hstack (Leads.ret ?_)
      refine Leads.part_ret (S := S .second) (i := .second) rfl hat GeneratingStream.runs_done
        (hfail _) fun st1 hmoves hat1 => ?_
      refine Leads.own hmoves.stack_eq (Leads.ret ?_)
      refine Leads.part_out (S := S .first) (i := .first) rfl
        (hmoves.at Nat.zero_ne_one hat') (GeneratingStream.runs_last halive') (hfail _)
        fun st2 hmoves2 hat2 => ?_
      have hsame : st2.state = st.state := hmoves2.state.trans hmoves.state
      refine release_leads 0 .first ?_ ?_
      · rw [hsame, hrun.locked, Bool.true_or, Bool.true_or, Bool.true_or]
      refine Leads.part_ret (S := S .first) (i := .first) hmoves2.stack_eq hat2
        GeneratingStream.runs_done (hfail _) fun st3 hmoves3 hat3 => ?_
      have hsame3 : st3.state = { st.state with wrappers := 1 } := by
        rw [hmoves3.state]
        simp only [hsame, hrun.wrapped]
      have hsecond : AtHalf S .second .live a [] st3.parts :=
        hmoves3.at Nat.one_ne_zero (hmoves2.at Nat.one_ne_zero hat1)
      refine Leads.own hmoves3.stack_eq (Leads.ret (Leads.env rfl ⟨_, hruns, .ret _ _ ?_⟩))
      refine .idle .second a [] _ b ?_ (.second ?_) hsecond ?_ hquiet hidle rfl
      · change Running x .second st3.state b a 1
        rw [hsame3]
        exact ⟨⟨hrun.alive, hrun.subscription, hrun.locked, hrun.created, rfl, hrun.upstream,
          hrun.running⟩, hrun.continueWith, hrun.demand, hrun.asked, hrun.left, hrun.unfinished⟩
      · intro hsub
        rw [hsub] at hat3
        exact ⟨_, _, hat3⟩
      · intro hfirst
        cases hfirst

/-- The last stream that holds the object is destroyed. -/
theorem over_leads (hat : AtHalf S h q a (.done :: ls) st.parts)
    (hrest : Resting S b.subscribing st.parts h ls) (p : Nat)
    (hsubscription : st.state.upstreamSubscription = some p)
    (hview : ∀ st' : St A, (∀ p', p' ≠ h.number → st'.parts[p']? = st.parts[p']?) →
      AtHalf S h q a ls st'.parts → st'.views p = true)
    (halive : st.state.hasEnded = false) (hunlocked : st.state.selfLock = false)
    (hwrapped : st.state.wrappers = 1) (hcreated : st.state.created = b.subscribing)
    (hloop : b.gen.generating = true) (hrunning : b.gen.hasEnded = false)
    (hstack : st.stack = .part h.number :: asked b.subscribing)
    (hruns : ∀ v, Runs ((both x).patient true)
      (((both x).patient true).resume noViews b (.sent true)) v →
      Runs ((both x).patient true) r' v) :
    Leads subscriptionCheck (Goes S (rests b.subscribing) r')
      (perform subscriptionCheck st
        ((component T).said st.views st.state h.number h .destroy)) := by
  have hfail : ∀ q, (streamProtocol T late False).broken q →
      ∀ (st : St A) msg, Goes S (rests b.subscribing) r' (st, .fail msg) :=
    fun q hbroken => hbroken.2.elim
  by_cases hsub : b.subscribing = true
  · -- the call of `Subscribe` holds it
    refine release_leads _ _ ?_ ?_
    · rw [hcreated, hsub, Bool.or_true, Bool.true_or]
    refine Leads.part_ret (S := S h) (i := h) hstack hat GeneratingStream.runs_done (hfail _)
      fun st1 hmoves hat1 => ?_
    have hsame : st1.state = { st.state with wrappers := 0 } := by
      rw [hmoves.state]
      simp only [hwrapped, Nat.sub_self]
    have hbottom : Bottom S true st1.parts := by
      intro _
      rw [hsub] at hrest
      cases hrest with
      | first => exact ⟨_, _, hat1⟩
      | second hbottom => exact hbottom.others hmoves.others rfl
    refine Leads.own hmoves.stack_eq (Leads.ret (Leads.env rfl ?_))
    refine ⟨_, hruns _ (Listing.patient_linger hsub), .ret _ _ ?_⟩
    have hks : (rests b.subscribing : List (ClosedPoint T × PatientGenerator.Point)) =
        [(.reply, .confirmed)] := by
      rw [hsub]
      rfl
    rw [hks]
    refine .lingering p _ _ ?_ ?_ ?_ ?_ ?_ ?_ hbottom ?_ hsub rfl hloop hrunning
    · exact hsame ▸ hsubscription
    · exact hview st1 hmoves.others hat1
    · exact hsame ▸ halive
    · exact hsame ▸ hunlocked
    · exact hsame ▸ rfl
    · exact hsame ▸ hcreated.trans hsub
    · rw [hsub]
  · rw [Bool.not_eq_true] at hsub
    have hcode : (component T).said st.views st.state h.number h .destroy =
        ({ st.state with wrappers := 0, hasEnded := true }, .out .destroy .done) := by
      change release { st.state with wrappers := st.state.wrappers - 1 } = _
      rw [release]
      simp only [hunlocked, hwrapped, hcreated, hsub, halive, Nat.sub_self, bne_self_eq_false,
        Bool.or_self, Bool.false_eq_true, if_false]
    rw [hcode]
    have hks : (rests b.subscribing : List (ClosedPoint T × PatientGenerator.Point)) = [] := by
      rw [hsub]
      rfl
    rw [hks]
    refine Leads.stop rfl ⟨_, hruns _ (Listing.patient_last hsub), .out _ _ _ _ _ ?_⟩
    refine .collapsing h q a _ _ ?_ rfl rfl ?_
    · rw [hsub] at hrest
      cases hrest with
      | first => exact hat
      | second _ => exact hat
    · rw [hstack, hsub]
      rfl

/-- The subscriber has returned from the end. -/
theorem ending_leads (hlive : Live h st.state b a w)
    (hunder : Under S b.subscribing st.parts h under ls w)
    (hat : AtHalf S h q a (.sent true :: ls) st.parts) (hloop : b.gen.generating = true)
    (hstack : st.stack = .own .selfDestruct :: .part h.number :: under)
    (hruns : ∀ v, Runs ((both x).patient true)
      (((both x).patient true).resume noViews b (.sent true)) v →
      Runs ((both x).patient true) r' v) :
    Leads subscriptionCheck (Goes S (rests b.subscribing) r') (back st) := by
  have hfail : ∀ q, (streamProtocol T late False).broken q →
      ∀ (st : St A) msg, Goes S (rests b.subscribing) r' (st, .fail msg) :=
    fun q hbroken => hbroken.2.elim
  have hcode : (component T).resume st.views st.state .selfDestruct =
      ({ st.state with selfLock := false }, .ret) := by
    change release { st.state with selfLock := false } = _
    have hheld : (false || st.state.wrappers != 0 || st.state.created ||
        st.state.hasEnded) = true := by
      rw [hlive.wrapped, bne_iff_ne.mpr hunder.pos, Bool.or_true, Bool.true_or, Bool.true_or]
    rw [release, if_pos hheld]
  refine Leads.own hstack ?_
  change Leads subscriptionCheck _ (perform subscriptionCheck
    { st with stack := .part h.number :: under }
    ((component T).resume st.views st.state .selfDestruct))
  rw [hcode]
  refine Leads.ret ?_
  refine Leads.part_out (S := S h) (i := h) rfl hat (GeneratingStream.runs_last hlive.upstream)
    (hfail _) fun st1 hmoves hat1 => ?_
  have hsame : st1.state = { st.state with selfLock := false } := hmoves.state
  cases hunder with
  | plain _ _ hrest =>
      refine over_leads hat1 ?_ h.number ?_ (fun st' _ hat' => ?_) ?_ ?_ ?_ ?_ hloop hlive.running
        hmoves.stack_eq hruns
      · exact hrest.others hmoves.others
      · exact hsame ▸ hlive.subscription
      · exact hat'.view
      · exact hsame ▸ hlive.alive
      · exact hsame ▸ rfl
      · exact hsame ▸ hlive.wrapped
      · exact hsame ▸ hlive.created
  | nested q' a' hat' halive' =>
      -- the first stream still has a wrapper, until its own call returns
      refine release_leads _ _ ?_ ?_
      · have hheld : (st1.state.wrappers - 1 != 0) = true := by
          rw [hsame]
          exact hlive.wrapped ▸ rfl
        rw [hheld, Bool.or_true, Bool.true_or, Bool.true_or]
      refine Leads.part_ret (S := S .second) (i := .second) hmoves.stack_eq hat1
        GeneratingStream.runs_done (hfail _) fun st2 hmoves2 hat2 => ?_
      refine Leads.own hmoves2.stack_eq (Leads.ret ?_)
      refine Leads.part_ret (S := S .second) (i := .second) rfl hat2 GeneratingStream.runs_done
        (hfail _) fun st3 hmoves3 hat3 => ?_
      refine Leads.own hmoves3.stack_eq (Leads.ret ?_)
      have hfirst : AtHalf S .first q' a' (.sent true :: below b.subscribing) st3.parts :=
        hmoves3.at Nat.zero_ne_one (hmoves2.at Nat.zero_ne_one (hmoves.at Nat.zero_ne_one hat'))
      refine Leads.part_out (S := S .first) (i := .first) rfl hfirst
        (GeneratingStream.runs_last halive') (hfail _) fun st4 hmoves4 hat4 => ?_
      have hsame4 : st4.state = { st.state with selfLock := false, wrappers := 1 } := by
        rw [hmoves4.state]
        simp only [hmoves3.state, hmoves2.state, hsame, hlive.wrapped, Nat.add_one_sub_one]
      refine over_leads (h := .first) hat4 .first 1 ?_ (fun st' hothers _ => ?_) ?_ ?_ ?_ ?_ hloop
        hlive.running hmoves4.stack_eq hruns
      · exact hsame4 ▸ hlive.subscription
      · rcases hmoves4.at Nat.one_ne_zero hat3 with ⟨u, hget, hu⟩
        have hsecond : AtHalf S .second _ _ _ st'.parts :=
          ⟨u, (hothers 1 Nat.one_ne_zero).trans hget, hu⟩
        exact hsecond.view
      · exact hsame4 ▸ hlive.alive
      · exact hsame4 ▸ rfl
      · exact hsame4 ▸ rfl
      · exact hsame4 ▸ hlive.created

/-- The stages after a status are after the call of `OnSubscribe`. -/
theorem after_status_ne_fresh (s : Status) (hs : s.code ≠ .ok) :
    (streamProtocol T late False).after .live (.onNext (.status s hs)) ≠ .fresh := by
  change (if (StatusOr.status s hs : StatusOr T).isDone then StreamStage.done
    else if (StatusOr.status s hs : StatusOr T).isEnd then .failed else .live) ≠ .fresh
  rw [StatusOr.isEnd_status, if_pos rfl]
  split
  · simp only [ne_eq, reduceCtorEq, not_false_eq_true]
  · simp only [ne_eq, reduceCtorEq, not_false_eq_true]

/-- A stream publishes the next event, if one is asked for and it has one for
    the subscriber. -/
theorem loop_leads {ks : List ((A h).Point × GeneratingStream.Point)} {r : Machine.Outcome (A h)}
    {rA : Machine.Outcome (x h).stream}
    (hanswers : Answers (streamProtocol T late False) (S h).Rel .live ks r rA)
    (hks : ks.map Prod.snd = ls)
    (hrunsA : ∀ v, Runs (x h).stream (a, .goto .generate) v → Runs (x h).stream rA v)
    (hlt : h.number < st.parts.length) (hrun : Running x h st.state b a w)
    (hunder : Under S b.subscribing st.parts h under ls w)
    (hlength : h = .first → st.parts.length = 1) (hbusy : a.generating = true)
    (hloop : b.gen.generating = true) (hstack : st.stack = under)
    (hruns : ∀ v, Runs ((both x).patient true) (b, .goto .generate) v →
      Runs ((both x).patient true) r' v)
    (hlast : a.requested.hasRequests = true → a.state = [] →
      h = .second ∨ (x h).ending.code ≠ .outOfRange) :
    Leads subscriptionCheck (Goes S (rests b.subscribing) r')
      (answer st h.number h (ks.map Prod.fst) r) := by
  have hfail : ∀ q, (streamProtocol T late False).broken q →
      ∀ (st : St A) msg, Goes S (rests b.subscribing) r' (st, .fail msg) :=
    fun q hbroken => hbroken.2.elim
  -- the demand of the stream is the demand of the half that runs
  by_cases hmore : a.requested.hasRequests = true
  · rcases RequestBalance.remove_isSome _ ((RequestBalance.hasRequests_iff _).mp hmore) with ⟨c, hc⟩
    have hmore' := hmore
    have hc' := hc
    rw [hrun.asked] at hmore' hc'
    cases hstate : a.state with
    | cons v vs =>
        rcases left_value (hstate ▸ hrun.left) with ⟨ws, hws, hleft⟩
        refine Leads.answer_out hanswers (hrunsA _ (Listing.runs_value hstate hmore hc)) hlt
            (hfail _)
          fun st1 hmoves hat => ?_
        rw [hks] at hat
        have hcode : (component T).said st1.views st1.state h.number h (.onNext (.value v)) =
            ({ st1.state with requestBalance := c }, .out (.onNext (.value v)) .done) := by
          change st1.state.onNext (.value v) = _
          rw [onNext, hmoves.state, hrun.demand]
          simp only [StatusOr.isEnd_value, Bool.not_false, if_true, hc']
        rw [hcode]
        refine Leads.stop rfl ⟨_, hruns _ (Listing.patient_value hws hmore' hc'), .out _ _ _ _ _ ?_⟩
        have hsame := hmoves.state
        refine .value h { a with requested := c, state := vs } under ls w _ _ ?_
          (hunder.others hmoves.others) hat ?_ hbusy hloop ?_
        · rw [hsame]
          exact ⟨⟨hrun.alive, hrun.subscription, hrun.locked, hrun.created, hrun.wrapped,
            hrun.upstream, hrun.running⟩, hrun.continueWith, rfl, rfl, hleft, hrun.unfinished⟩
        · exact fun hfirst => hmoves.length.trans (hlength hfirst)
        · exact congrArg _ (hmoves.stack_eq.trans (congrArg _ hstack))
    -- the first half may have nothing left only if it ends with an error
    | nil =>
        have hend := hlast hmore hstate
        rcases left_status hend (hstate ▸ hrun.left) with ⟨hws, hending⟩
        have hevent : (StatusOr.status (x h).ending (x h).notOk : StatusOr T) =
            .status (both x).ending (both x).notOk := by
          rw [StatusOr.status.injEq]
          exact hending.symm
        refine Leads.answer_out hanswers (hrunsA _ (Listing.runs_status hstate hmore hc)) hlt
          (hfail _) fun st1 hmoves hat => ?_
        rw [hks] at hat
        have hsame := hmoves.state
        have hcode : (component T).said st1.views st1.state h.number h
              (.onNext (.status (x h).ending (x h).notOk)) =
            (st1.state, .out (.onNext (.status (x h).ending (x h).notOk)) .selfDestruct) := by
          change st1.state.onNext (.status (x h).ending (x h).notOk) = _
          have hlong : ((StatusOr.status (x h).ending (x h).notOk : StatusOr T).isError ||
              !st1.state.isRunningFirst) = true := by
            rw [isRunningFirst, hsame, hrun.continueWith]
            rcases hend with rfl | herror
            · exact Bool.or_true _
            · rw [StatusOr.isError_status, beq_eq_false_iff_ne.mpr herror]
              rfl
          rw [onNext, StatusOr.isEnd_status, Bool.not_true, if_neg Bool.false_ne_true, if_pos hlong]
        rw [hcode, hevent]
        refine Leads.stop rfl ⟨_, hruns _ (Listing.patient_status hws hmore' hc'), .out
            _ _ _ _ _ ?_⟩
        refine .ending h _ _ under ls w _ _ ?_ (hunder.others hmoves.others) hat
          (after_status_ne_fresh _ _) hbusy hloop ?_
        · rw [hsame]
          exact ⟨hrun.alive, hrun.subscription, hrun.locked, hrun.created, hrun.wrapped,
            hrun.upstream, hrun.running⟩
        · exact congrArg _ (hmoves.stack_eq.trans (congrArg _ hstack))
  · rw [Bool.not_eq_true] at hmore
    refine Leads.answer_ret hanswers (hrunsA _ (GeneratingStream.runs_none hmore)) hlt (hfail _)
      fun st1 hmoves hat => ?_
    rw [hks] at hat
    refine idle_leads (b := { b with gen := { b.gen with generating := false } })
      (a := { a with generating := false }) ?_ (hunder.others hmoves.others) hat ?_ rfl rfl
      (hmoves.stack_eq.trans hstack) (hruns _ (Listing.patient_none (hrun.asked ▸ hmore)))
    · rw [hmoves.state]
      exact ⟨⟨hrun.alive, hrun.subscription, hrun.locked, hrun.created, hrun.wrapped,
        hrun.upstream, hrun.running⟩, hrun.continueWith, hrun.demand, hrun.asked, hrun.left,
        hrun.unfinished⟩
    · exact fun hfirst => hmoves.length.trans (hlength hfirst)

/-- The first stream is done. The second is subscribed to, and is asked for what
    the subscriber still waits for. -/
theorem switch_leads {ks : List ((A .first).Point × GeneratingStream.Point)}
    {r : Machine.Outcome (A .first)} {rA : Machine.Outcome (x .first).stream}
    (hanswers : Answers (streamProtocol T late False) (S .first).Rel .live ks r rA)
    (hks : ks.map Prod.snd = ls)
    (hrunsA : ∀ v, Runs (x .first).stream (a, .goto .generate) v → Runs (x .first).stream rA v)
    (hrun : Running x .first st.state b a w)
    (hunder : Under S b.subscribing st.parts .first under ls w) (hlength : st.parts.length = 1)
    (hloop : b.gen.generating = true) (hstack : st.stack = under)
    (hruns : ∀ v, Runs ((both x).patient true) (b, .goto .generate) v →
      Runs ((both x).patient true) r' v)
    (hmore : a.requested.hasRequests = true) (hstate : a.state = [])
    (hdone : (x .first).ending.code = .outOfRange) :
    Leads subscriptionCheck (Goes S (rests b.subscribing) r')
      (answer st 0 .first (ks.map Prod.fst) r) := by
  have hfail : ∀ q, (streamProtocol T late False).broken q →
      ∀ (st : St A) msg, Goes S (rests b.subscribing) r' (st, .fail msg) :=
    fun q hbroken => hbroken.2.elim
  cases hunder with
  | plain _ _ hrest =>
  cases hrest with
  | first =>
  rcases RequestBalance.remove_isSome _ ((RequestBalance.hasRequests_iff _).mp hmore) with ⟨c, hc⟩
  refine Leads.answer_out hanswers (hrunsA _ (Listing.runs_status hstate hmore hc))
      (hlength ▸ Nat.one_pos)
    (hfail _) fun st1 hmoves hat => ?_
  rw [hks] at hat
  have hsame := hmoves.state
  have hlength1 : st1.parts.length = 1 := hmoves.length.trans hlength
  have hmake : (component T).said st1.views st1.state 0 .first
        (.onNext (.status (x .first).ending (x .first).notOk)) =
      ({ st.state with
          upstreamSubscription := none, continueWith := false, selfLock := true, wrappers := 2 },
        .make .second .subscribe .done) := by
    change st1.state.onNext (.status (x .first).ending (x .first).notOk) = _
    have hlong : ((StatusOr.status (x .first).ending (x .first).notOk : StatusOr T).isError ||
        !st1.state.isRunningFirst) = false := by
      rw [isRunningFirst, hsame, hrun.continueWith, StatusOr.isError_status, hdone]
      rfl
    rw [onNext, StatusOr.isEnd_status, Bool.not_true, if_neg Bool.false_ne_true,
      if_neg (Bool.eq_false_iff.mp hlong), subscribeNext, hsame, hrun.wrapped]
  rw [hmake]
  -- the new stream is the part with number 1
  have hnew := At.create (N := A) (i := .second) (S .second) st1.parts
  refine Leads.make ?_
  rw [hlength1] at hnew ⊢
  refine Leads.ask_out hnew rfl rfl GeneratingStream.runs_subscribe (hfail _)
    fun st2 hmoves2 hat2 => ?_
  have hfirst : AtHalf S .first _ { a with requested := c } (.sent true :: below b.subscribing)
      st2.parts := hmoves2.at Nat.zero_ne_one (hat.append _)
  have hsame2 := hmoves2.state
  have hask : (component T).said st2.views st2.state 1 .second .onSubscribe =
      ({ st.state with
          upstreamSubscription := some 1, continueWith := false, selfLock := true, wrappers := 2 },
        .ask 1 (.request b.gen.requested.balance) .done) := by
    change st2.state.onSubscribe 1 = _
    rw [onSubscribe, hsame2]
    have hrequests : b.gen.requested.hasRequests = true := hrun.asked ▸ hmore
    simp only [isRunningFirst, Option.isSome_none, Bool.false_and, Bool.false_eq_true, if_false,
      hrun.demand, hrequests, if_true]
  rw [hask]
  have hallow : (streamProtocol T late False).allow .live (.request b.gen.requested.balance) := by
    refine ⟨?_, ?_, b.gen.requested.le_kMax⟩
    · simp only [ne_eq, reduceCtorEq, not_false_eq_true]
    · exact (RequestBalance.hasRequests_iff _).mp (hrun.asked ▸ hmore)
  refine Leads.ask hat2 rfl (Leads.ask_go hat2 hallow rfl fun ks2 r2 hls2 hanswers2 => ?_)
  refine loop_leads (h := .second) (S := S) (b := b) (a := {
      state := (x .second).values
      requested := RequestBalance.zero.add b.gen.requested.balance, generating := true })
    hanswers2 hls2 (fun v hv => GeneratingStream.runs_request rfl hv) hat2.lt ?_
    (.nested _ { a with requested := c } hfirst hrun.upstream) (fun hfalse => by cases hfalse) rfl
        hloop ?_ hruns
    (fun _ _ => Or.inl rfl)
  · refine ⟨⟨hrun.alive, rfl, rfl, hrun.created, rfl, rfl, hrun.running⟩, rfl, hrun.demand, ?_,
      left_switch hdone (hstate ▸ hrun.left), hrun.unfinished⟩
    ext
    rw [RequestBalance.balance_add, RequestBalance.balance_zero, Nat.zero_add]
    exact Nat.min_eq_right b.gen.requested.le_kMax
  · rw [hmoves2.stack_eq]
    simp only [hmoves.stack_eq, hstack]

/-- The loop of a stream goes on, in this stream or in the other. -/
theorem turn_leads {ks : List ((A h).Point × GeneratingStream.Point)} {r : Machine.Outcome (A h)}
    {rA : Machine.Outcome (x h).stream}
    (hanswers : Answers (streamProtocol T late False) (S h).Rel .live ks r rA)
    (hks : ks.map Prod.snd = ls)
    (hrunsA : ∀ v, Runs (x h).stream (a, .goto .generate) v → Runs (x h).stream rA v)
    (hlt : h.number < st.parts.length) (hrun : Running x h st.state b a w)
    (hunder : Under S b.subscribing st.parts h under ls w)
    (hlength : h = .first → st.parts.length = 1) (hbusy : a.generating = true)
    (hloop : b.gen.generating = true) (hstack : st.stack = under)
    (hruns : ∀ v, Runs ((both x).patient true) (b, .goto .generate) v →
      Runs ((both x).patient true) r' v) :
    Leads subscriptionCheck (Goes S (rests b.subscribing) r')
      (answer st h.number h (ks.map Prod.fst) r) := by
  by_cases hswitch : (a.requested.hasRequests = true ∧ a.state = []) ∧
      h = .first ∧ (x h).ending.code = .outOfRange
  · rcases hswitch with ⟨⟨hmore, hstate⟩, rfl, hdone⟩
    exact switch_leads hanswers hks hrunsA hrun hunder (hlength rfl) hloop hstack hruns hmore hstate
      hdone
  · refine loop_leads hanswers hks hrunsA hlt hrun hunder hlength hbusy hloop hstack hruns
      fun hmore hstate => ?_
    cases h with
    | second => exact Or.inl rfl
    | first => exact Or.inr fun hdone => hswitch ⟨⟨hmore, hstate⟩, rfl, hdone⟩

/-- The subscriber has returned from a value. -/
theorem value_leads (hrun : Running x h st.state b a w)
    (hunder : Under S b.subscribing st.parts h under ls w)
    (hat : AtHalf S h .live a (.sent false :: ls) st.parts)
    (hlength : h = .first → st.parts.length = 1) (hbusy : a.generating = true)
    (hloop : b.gen.generating = true) (hstack : st.stack = .own .done :: .part h.number :: under)
    (hruns : ∀ v, Runs ((both x).patient true) (b, .goto .generate) v →
      Runs ((both x).patient true) r' v) :
    Leads subscriptionCheck (Goes S (rests b.subscribing) r') (back st) := by
  refine Leads.own hstack (Leads.ret ?_)
  refine Leads.part_go (S := S h) (i := h) rfl hat fun ks r hls hanswers => ?_
  exact turn_leads hanswers hls (fun v hv => GeneratingStream.runs_sent hrun.upstream hv)
    hat.lt hrun
    hunder hlength hbusy hloop rfl hruns

/-- It has returned from `OnSubscribe`. The first stream returns, and then
    `SubscribeNext`. -/
theorem confirmed_leads {Inv : Nest.Result (component T) A → Prop}
    (hat : AtHalf S .first q a [.done] st.parts) (hstack : st.stack = base true)
    (hnext : ∀ st' : St A, st'.stack = [.env] → AtHalf S .first q a [] st'.parts →
      (∀ p, p ≠ 0 → st'.parts[p]? = st.parts[p]?) → st'.parts.length = st.parts.length →
      Leads subscriptionCheck Inv
        (perform subscriptionCheck st' (release { st.state with created := false }))) :
    Leads subscriptionCheck Inv (back st) := by
  have hfail : ∀ q, (streamProtocol T late False).broken q →
      ∀ (st : St A) msg, Inv (st, .fail msg) :=
    fun q hbroken => hbroken.2.elim
  refine Leads.own hstack (Leads.ret ?_)
  refine Leads.part_ret (S := S .first) (i := .first) rfl hat GeneratingStream.runs_done (hfail _)
    fun st1 hmoves hat1 => ?_
  refine Leads.own hmoves.stack_eq ?_
  change Leads subscriptionCheck Inv (perform subscriptionCheck { st1 with stack := [.env] }
    (release { st1.state with created := false }))
  rw [hmoves.state]
  exact hnext _ rfl hat1 hmoves.others hmoves.length

/-- It has returned while one of the streams is running. -/
theorem idle_confirmed (hrun : Running x h st.state b a 1)
    (hrest : Resting S b.subscribing st.parts h ls) (hat : AtHalf S h .live a ls st.parts)
    (hlength : h = .first → st.parts.length = 1) (hquiet : a.generating = false)
    (hidle : b.gen.generating = false) (hsub : b.subscribing = true)
    (hstack : st.stack = base b.subscribing) :
    Leads subscriptionCheck (Goes S [] (((both x).patient true).resume noViews b .confirmed))
      (back st) := by
  have hruns : Runs ((both x).patient true) (((both x).patient true).resume noViews b .confirmed)
      ({ b with subscribing := false }, .ret) := by
    have hcode : b.confirmed true = ({ b with subscribing := false }, .ret) := by
      simp only [PatientGenerator.confirmed, hrun.unfinished, Bool.false_eq_true, if_false, if_true]
    change Runs ((both x).patient true) (b.confirmed true) _
    rw [hcode]
    exact Runs.stop (A := (both x).patient true) _ rfl
  have hheld : (release { st.state with created := false } : Result T) =
      ({ st.state with created := false }, .ret) := by
    rw [release]
    simp only [hrun.locked, Bool.true_or, if_true]
  have hrun' : Running x h { st.state with created := false } { b with subscribing := false } a 1 :=
    ⟨⟨hrun.alive, hrun.subscription, hrun.locked, rfl, hrun.wrapped, hrun.upstream, hrun.running⟩,
      hrun.continueWith, hrun.demand, hrun.asked, hrun.left, hrun.unfinished⟩
  rw [hsub] at hrest hstack
  -- the call of the first half may still be waited for, also when the second one runs
  cases hrest with
  | first =>
      refine confirmed_leads hat hstack fun st1 hstack1 hat1 _ hlength1 => ?_
      rw [hheld]
      refine Leads.ret (Leads.env hstack1 ⟨_, hruns, .ret _ _ ?_⟩)
      exact .idle .first a [] _ { b with subscribing := false } hrun' .first hat1
        (fun hfirst => hlength1.trans (hlength hfirst)) hquiet hidle rfl
  | second hbottom =>
      rcases hbottom rfl with ⟨q', a', hfirst⟩
      refine confirmed_leads hfirst hstack fun st1 hstack1 _ hothers hlength1 => ?_
      rw [hheld]
      rcases hat with ⟨u, hget, hu⟩
      refine Leads.ret (Leads.env hstack1 ⟨_, hruns, .ret _ _ ?_⟩)
      refine .idle .second a [] _ { b with subscribing := false } hrun' (.second ?_)
        ⟨u, (hothers 1 Nat.one_ne_zero).trans hget, hu⟩ ?_ hquiet hidle rfl
      · intro hfalse
        cases hfalse
      · intro hfalse
        cases hfalse

/-- It has returned when the end was published. Nobody holds the object any
    more. -/
theorem lingering_leads (halive : st.state.hasEnded = false) (hunlocked : st.state.selfLock = false)
    (hunwrapped : st.state.wrappers = 0) (hbottom : Bottom S true st.parts)
    (hstack : st.stack = base true) (hfinished : b.finished = true) :
    Leads subscriptionCheck (Goes S [] (((both x).patient true).resume noViews b .confirmed))
      (back st) := by
  rcases hbottom rfl with ⟨q', a', hfirst⟩
  refine confirmed_leads hfirst hstack fun st1 hstack1 _ _ _ => ?_
  have hcode : (release { st.state with created := false } : Result T) =
      ({ st.state with created := false, hasEnded := true }, .out .destroy .done) := by
    rw [release]
    simp only [hunlocked, hunwrapped, halive, bne_self_eq_false, Bool.or_self, Bool.false_eq_true,
      if_false]
  have hcode' : b.confirmed true = ({ b with subscribing := false }.destroy) := by
    simp only [PatientGenerator.confirmed, hfinished, if_true]
  rw [hcode]
  refine Leads.stop rfl ⟨({ b with subscribing := false }.destroy), ?_, .out _ _ _ _ _ ?_⟩
  · change Runs ((both x).patient true) (b.confirmed true) _
    rw [hcode']
    exact Runs.stop (A := (both x).patient true) _ rfl
  · exact .destroying _ _ rfl rfl (congrArg _ hstack1)

end Turns

section Simulation

variable {S : ∀ h, Simulation subscriptionCheck (streamProtocol T late False) (A h) (x h).stream}
  {h : Half} {q : StreamStage} {a : GeneratingStream (List T)} {ls : List GeneratingStream.Point}
  {w n : Nat} {st : St A} {b : PatientGenerator T}
  {ks : List (ClosedPoint T × PatientGenerator.Point)}

/-- What is read of the whole. -/
theorem Tracks.look {q : Bool} (h : Tracks S q st b ks) : st.state.hasEnded = b.gen.hasEnded := by
  cases h with
  | fresh _ hstate => rw [hstate]
  | idle _ _ _ _ _ hrun => rw [hrun.alive, hrun.running]
  | value _ _ _ _ _ _ _ hrun => rw [hrun.alive, hrun.running]
  | ending _ _ _ _ _ _ _ _ hlive => rw [hlive.alive, hlive.running]
  | lingering _ _ _ _ _ halive _ _ _ _ _ _ _ _ hrunning => rw [halive, hrunning]
  | destroying _ _ hended hended' => rw [hended, hended']
  | collapsing _ _ _ _ _ _ hended hended' => rw [hended, hended']
  | dead _ _ hended hended' => rw [hended, hended']

/-- A request is noted and passed on. -/
theorem request_code (hsubscription : st.state.upstreamSubscription = some h.number)
    (hview : st.views h.number = false) :
    (component T).call st.views st.state (.request n) =
      ({ st.state with requestBalance := st.state.requestBalance.add n },
        .ask h.number (.request n) .done) := by
  change st.state.request st.views n = _
  simp only [request, hsubscription, hview, Bool.false_eq_true, if_false]

theorem request_allowed (hn : 1 ≤ n ∧ n ≤ kMax) (hq : q ≠ .fresh) :
    (streamProtocol T late False).allow q (.request n) :=
  ⟨hq, hn⟩

/-- A request while the loop of the other machine is running is noted, by the
    stream too. -/
theorem busy_request (hlive : Live h st.state b a w) (hat : AtHalf S h q a ls st.parts)
    (hq : q ≠ .fresh) (hn : 1 ≤ n ∧ n ≤ kMax) (hbusy : a.generating = true)
    (hloop : b.gen.generating = true)
    (hnext : ∀ st' : St A,
      st'.state = { st.state with requestBalance := st.state.requestBalance.add n } →
      st'.stack = st.stack → (∀ p, p ≠ h.number → st'.parts[p]? = st.parts[p]?) →
      st'.parts.length = st.parts.length →
      AtHalf S h q { a with requested := a.requested.add n } ls st'.parts →
      Tracks S true st' { b with gen := { b.gen with requested := b.gen.requested.add n } } ks) :
    Leads subscriptionCheck (Goes S ks (((both x).patient true).call noViews b (.request n)))
      (Nest.call subscriptionCheck st (.request n)) := by
  have hview : st.views h.number = false := hat.view.trans hlive.upstream
  have hgate : subscriptionCheck a.hasEnded (.request n) = none := by
    rw [hlive.upstream, subscriptionCheck_false]
  have hcode := request_code (n := n) hlive.subscription hview
  change Leads subscriptionCheck _ (perform subscriptionCheck
    { st with stack := .env :: st.stack, log := .call (.request n) :: st.log }
    ((component T).call st.views st.state (.request n)))
  rw [hcode]
  refine Leads.ask (S := S h) (i := h) hat hgate ?_
  refine Leads.ask_ret (S := S h) (i := h) hat (request_allowed hn hq) hgate
    (GeneratingStream.runs_busy n hbusy) (fun hbroken => hbroken.2.elim) fun st1 hmoves hat1 => ?_
  refine Leads.own hmoves.stack_eq (Leads.ret (Leads.env rfl ?_))
  refine ⟨_, Listing.patient_busy n hloop, .ret _ _ ?_⟩
  exact hnext _ hmoves.state rfl hmoves.others hmoves.length hat1

/-- A request at rest starts the loop. -/
theorem idle_request (hrun : Running x h st.state b a 1)
    (hrest : Resting S b.subscribing st.parts h ls) (hat : AtHalf S h .live a ls st.parts)
    (hlength : h = .first → st.parts.length = 1) (hquiet : a.generating = false)
    (hidle : b.gen.generating = false) (hstack : st.stack = base b.subscribing)
    (hn : 1 ≤ n ∧ n ≤ kMax) :
    Leads subscriptionCheck
      (Goes S (rests b.subscribing) (((both x).patient true).call noViews b (.request n)))
      (Nest.call subscriptionCheck st (.request n)) := by
  have hview : st.views h.number = false := hat.view.trans hrun.upstream
  have hgate : subscriptionCheck a.hasEnded (.request n) = none := by
    rw [hrun.upstream, subscriptionCheck_false]
  have hq : StreamStage.live ≠ .fresh := by
    simp only [ne_eq, reduceCtorEq, not_false_eq_true]
  have hcode := request_code (n := n) hrun.subscription hview
  change Leads subscriptionCheck _ (perform subscriptionCheck
    { st with stack := .env :: st.stack, log := .call (.request n) :: st.log }
    ((component T).call st.views st.state (.request n)))
  rw [hcode]
  refine Leads.ask (S := S h) (i := h) hat hgate ?_
  refine Leads.ask_go (S := S h) (i := h) hat (request_allowed hn hq) hgate
    fun ks r hls hanswers => ?_
  refine turn_leads (S := S) (w := 1) (a := { a with
      requested := a.requested.add n, generating := true })
    (b := { b with gen := { b.gen with requested := b.gen.requested.add n, generating := true } })
    hanswers hls (fun v hv => GeneratingStream.runs_request hquiet hv) hat.lt ?_ (.plain _ _ hrest)
    hlength rfl rfl ?_ fun v hv => Listing.patient_request hidle hv
  · exact ⟨⟨hrun.alive, hrun.subscription, hrun.locked, hrun.created, hrun.wrapped, hrun.upstream,
      hrun.running⟩, hrun.continueWith, congrArg (fun c => c.add n) hrun.demand,
      congrArg (fun c => c.add n) hrun.asked, hrun.left, hrun.unfinished⟩
  · rw [asked, ← hstack]

/-- A request is answered as by the generator. -/
theorem Tracks.request {q : Bool} (h : Tracks S q st b ks) (hq : q = true)
    (hn : 1 ≤ n ∧ n ≤ kMax) (hgate : subscriptionCheck st.state.hasEnded (.request n) = none) :
    Leads subscriptionCheck (Goes S ks (((both x).patient true).call noViews b (.request n)))
      (Nest.call subscriptionCheck st (.request n)) := by
  -- at rest a request starts the loop, inside an OnNext it is only added
  cases h with
  | fresh => cases hq
  | idle _ _ _ _ _ hrun hrest hat hlength hquiet hidle hstack =>
      exact idle_request hrun hrest hat hlength hquiet hidle hstack hn
  | value h a under ls w _ _ hrun hunder hat hlength hbusy hloop hstack =>
      have hlive : StreamStage.live ≠ .fresh := by
        simp only [ne_eq, reduceCtorEq, not_false_eq_true]
      refine busy_request hrun.toLive hat hlive hn hbusy hloop
        fun st' hsame hsame' hothers hlength' hat' => ?_
      refine .value h { a with requested := a.requested.add n } under ls w st' _ ?_
        (hunder.others hothers) hat' (fun hfirst => hlength'.trans (hlength hfirst)) hbusy hloop
        (hsame'.trans hstack)
      rw [hsame]
      exact ⟨⟨hrun.alive, hrun.subscription, hrun.locked, hrun.created, hrun.wrapped,
        hrun.upstream, hrun.running⟩, hrun.continueWith, congrArg (fun c => c.add n) hrun.demand,
        congrArg (fun c => c.add n) hrun.asked, hrun.left, hrun.unfinished⟩
  | ending h q' a under ls w _ _ hlive hunder hat hq' hbusy hloop hstack =>
      refine busy_request hlive hat hq' hn hbusy hloop
        fun st' hsame hsame' hothers _ hat' => ?_
      refine .ending h q' { a with requested := a.requested.add n } under ls w st' _ ?_
        (hunder.others hothers) hat' hq' hbusy hloop (hsame'.trans hstack)
      rw [hsame]
      exact ⟨hlive.alive, hlive.subscription, hlive.locked, hlive.created, hlive.wrapped,
        hlive.upstream, hlive.running⟩
  -- the request comes after the end, to a stream that is not deleted yet
  | lingering p _ _ hsubscription hview halive hunlocked hunwrapped hcreated hbottom hstack
      hsubscribing hfinished hloop hrunning =>
      have hcode : (component T).call st.views st.state (.request n) =
          ({ st.state with requestBalance := st.state.requestBalance.add n }, .ret) := by
        change st.state.request st.views n = _
        simp only [ConcatStream.request, hsubscription, hview, if_true]
      change Leads subscriptionCheck _ (perform subscriptionCheck
        { st with stack := .env :: st.stack, log := .call (.request n) :: st.log }
        ((component T).call st.views st.state (.request n)))
      rw [hcode]
      refine Leads.ret (Leads.env rfl ⟨_, Listing.patient_busy n hloop, .ret _ _ ?_⟩)
      exact .lingering p _ _ hsubscription hview halive hunlocked hunwrapped hcreated hbottom hstack
        hsubscribing hfinished hloop hrunning
  | destroying _ _ hended => simp only [hended, subscriptionCheck, if_true, reduceCtorEq] at hgate
  | collapsing _ _ _ _ _ _ hended =>
      simp only [hended, subscriptionCheck, if_true, reduceCtorEq] at hgate
  | dead _ _ hended => simp only [hended, subscriptionCheck, if_true, reduceCtorEq] at hgate

/-- The stream is subscribed, and subscribes to the first. -/
theorem subscribe_leads (hstate : st.state = {}) (hparts : st.parts = []) (hstack : st.stack = []) :
    Leads subscriptionCheck
      (fun v => ∃ v', Runs ((both x).patient true)
        (((both x).patient true).call noViews ((both x).patient true).start .subscribe) v' ∧
        Match (patientProtocol T) (A := closed A) (B := (both x).patient true) (Tracks S) false []
          v v')
      (Nest.call subscriptionCheck st .subscribe) := by
  -- the first half is made at once, the second only when the first is done
  have hmake : (component T).call st.views st.state .subscribe =
      ({ created := true, selfLock := true, wrappers := 1 },
        .make .first .subscribe .subscribed) := by
    change subscribeNext { st.state with created := true } .first .subscribed = _
    rw [subscribeNext, hstate]
  change Leads subscriptionCheck _ (perform subscriptionCheck
    { st with stack := .env :: st.stack, log := .call .subscribe :: st.log }
    ((component T).call st.views st.state .subscribe))
  rw [hmake]
  have hnew := At.create (N := A) (i := .first) (S .first) st.parts
  refine Leads.make ?_
  rw [hparts] at hnew ⊢
  refine Leads.ask_out hnew rfl rfl GeneratingStream.runs_subscribe
    (fun hbroken => hbroken.2.elim) fun st1 hmoves hat => ?_
  have hsame := hmoves.state
  have hconfirm : (component T).said st1.views st1.state 0 .first .onSubscribe =
      ({ created := true, selfLock := true, wrappers := 1, upstreamSubscription := some 0 },
        .out .onSubscribe .done) := by
    change st1.state.onSubscribe 0 = _
    rw [onSubscribe, hsame]
    rfl
  change Leads subscriptionCheck _ (perform subscriptionCheck st1
    ((component T).said st1.views st1.state 0 .first .onSubscribe))
  rw [hconfirm]
  refine Leads.stop rfl ⟨_, Runs.stop (A := (both x).patient true) _ rfl, .out _ _ _ _ _ ?_⟩
  refine .idle .first { state := (x .first).values } [.done] _
    { gen := { state := (both x).values }, subscribing := true } ?_ .first hat
    (fun _ => hmoves.length) rfl rfl ?_
  · exact ⟨⟨rfl, rfl, rfl, rfl, rfl, rfl, rfl⟩, rfl, rfl, rfl, rfl, rfl⟩
  · simp only [hmoves.stack_eq, hstack, base, if_true, List.length_nil]

/-- The subscriber returns. -/
theorem Tracks.resume {q : Bool} {k : ClosedPoint T} {l : PatientGenerator.Point}
    (h : Tracks S q st b ((k, l) :: ks)) :
    k = .reply ∧ q = true ∧
      Leads subscriptionCheck (Goes S ks (((both x).patient true).resume noViews b l))
          (back st) := by
  generalize hks : (k, l) :: ks = ks' at h
  have hpoint : ∀ {l' ks'}, (k, l) :: ks = (.reply, l') :: ks' → k = .reply ∧ l = l' ∧
      ks = ks' := by
    intro l' ks' heq
    rcases List.cons.inj heq with ⟨hhead, htail⟩
    rcases Prod.mk.inj hhead with ⟨hk, hl⟩
    exact ⟨hk, hl, htail⟩
  cases h with
  | fresh => cases hks
  | idle _ _ _ _ _ hrun hrest hat hlength hquiet hidle hstack =>
      by_cases hsub : b.subscribing = true
      · rw [rests, hsub, if_pos rfl] at hks
        rcases hpoint hks with ⟨hk, rfl, rfl⟩
        exact ⟨hk, rfl, idle_confirmed hrun hrest hat hlength hquiet hidle hsub hstack⟩
      · rw [rests, if_neg hsub] at hks
        cases hks
  | value _ _ _ _ _ _ _ hrun hunder hat hlength hbusy hloop hstack =>
      rcases hpoint hks with ⟨hk, rfl, rfl⟩
      exact ⟨hk, rfl, value_leads hrun hunder hat hlength hbusy hloop hstack fun v hv => hv⟩
  | ending _ _ _ _ _ _ _ _ hlive hunder hat _ _ hloop hstack =>
      rcases hpoint hks with ⟨hk, rfl, rfl⟩
      exact ⟨hk, rfl, ending_leads hlive hunder hat hloop hstack fun v hv => hv⟩
  | lingering _ _ _ _ _ halive hunlocked hunwrapped _ hbottom hstack _ hfinished =>
      rcases hpoint hks with ⟨hk, rfl, rfl⟩
      exact ⟨hk, rfl, lingering_leads halive hunlocked hunwrapped hbottom hstack hfinished⟩
  | destroying _ _ hended hended' hstack =>
      rcases hpoint hks with ⟨hk, rfl, rfl⟩
      refine ⟨hk, rfl, Leads.own hstack (Leads.ret (Leads.env rfl ?_))⟩
      exact ⟨_, Runs.stop (A := (both x).patient true) _ rfl, .ret _ _
          (.dead _ _ hended hended' rfl)⟩
  -- the stream is gone, and the half that was running goes with it
  | collapsing h _ _ _ _ hat hended hended' hstack =>
      rcases hpoint hks with ⟨hk, rfl, rfl⟩
      refine ⟨hk, rfl, Leads.own hstack (Leads.ret ?_)⟩
      refine Leads.part_ret (S := S h) (i := h) rfl hat GeneratingStream.runs_done
        (fun hbroken => hbroken.2.elim) fun st1 hmoves _ => ?_
      refine Leads.own hmoves.stack_eq (Leads.ret (Leads.env rfl ?_))
      refine ⟨_, Runs.stop (A := (both x).patient true) _ rfl, .ret _ _ (.dead _ _ ?_ hended' rfl)⟩
      exact hmoves.state ▸ hended
  | dead => cases hks

/-- `Concat` stands for the generator of one listing after the other, which may
    begin in `OnSubscribe`. -/
def simulation
    (S : ∀ h, Simulation subscriptionCheck (streamProtocol T late False) (A h) (x h).stream) :
    Simulation subscriptionCheck (patientProtocol T) (closed A) ((both x).patient true) where
  Rel := Tracks S
  start := .fresh _ rfl rfl rfl
  look _ _ _ _ h := h.look
  call := by
    intro q st b ks c h hallow hgate
    refine Leads.answers ?_
    cases c with
    | subscribe =>
        have hfresh : q = false := hallow
        subst hfresh
        cases h with
        | fresh _ hstate hparts hstack => exact subscribe_leads hstate hparts hstack
    | request n =>
        have hq : q = true := hallow.1
        subst hq
        exact h.request rfl hallow.2 hgate
    | cancel => exact hallow.elim
  resume := by
    intro q st b k l ks h
    rcases h.resume with ⟨rfl, rfl, hleads⟩
    exact Leads.answers hleads

end Simulation

/-- `Concat` of safe pipelines delivers the listing of the first and then that of
    the second, unless the first fails. -/
theorem appends (p : Half → Pipeline T) (hsafe : ∀ h, (p h).Safe)
    (st : Open (closed fun h => (p h).machine))
    (h : Open.Reach subscriptionCheck (LogRules Patient) st) :
    ((p .first).listing.andThen (p .second).listing).Behaves False st := by
  have S := fun h => Classical.choice ((p h).exists_simulation_safe (hsafe h))
  exact Listing.behaves_of_patient (simulation (x := fun h => (p h).listing) S) st h

/-- Two values, and then two with their tenfolds. -/
def onesAndTens : Half → Pipeline Nat
  | .first => .source (.ofValues [3, 4])
  | .second => .tens

/-- Three events are asked for, two of which the first stream has, and five more
    while the third is handled. -/
theorem appends_tens : ∃ st : Open (closed fun h => (onesAndTens h).machine),
    received st.log =
        [.value 3, .value 4, .value 1, .value 10, .value 2, .value 20, .done] ∧
      ((onesAndTens .first).listing.andThen (onesAndTens .second).listing).Behaves False st := by
  rcases exists_reach_of_converse (A := closed fun h => (onesAndTens h).machine)
    subscriptionCheck Patient 60
    [.call .subscribe, .reply, .call (.request 3), .reply, .reply, .call (.request 5), .reply,
      .reply, .reply, .reply, .reply]
    (fun st => decide (received st.log =
      [.value 3, .value 4, .value 1, .value 10, .value 2, .value 20, .done]))
    (by decide +kernel) with ⟨st, hreach, htest⟩
  refine ⟨st, of_decide_eq_true htest, appends onesAndTens (fun h => ?_) st hreach⟩
  cases h with
  | first => exact trivial
  | second => exact Pipeline.tens_safe

end ConcatStream

end RxCppUniq
