import RxCppUniq.Reactive.Chaining
import RxCppUniq.Reactive.Listing

/-!
# Map Passes Values On

`Map` with a function that makes a value of every value, and `StaticCast`, over
a base stream which stands for a listing stand for the listing with the function
applied to it. Every call of the subscriber is passed on to the base as it is,
and every call of the base to the subscriber.

A function that makes `Done` or an error of a value is left out: the base goes
on after it, which no listing does.

## Main definitions

* `ChainingFunc.Passes`: What is used of the two functions.
* `ChainingStream.simulation`: The stream stands for the mapped listing.

## Theorems

* `ChainingStream.runs_map`: What the generator of a listing does, the one of the
  mapped listing does.
-/

namespace RxCppUniq

open Theory Theory.Machine Theory.Nest

open GeneratingStream (NoParts)

variable {T R : Type}

/-- The functions pass on what the values of a listing are mapped to. -/
structure ChainingFunc.Passes (f : ChainingFunc T R) (g : T → R) (x : Listing T) : Prop where
  request : ∀ n, f.requestMapping n = n
  value : ∀ c, ∀ v ∈ x.values, f.func c (.value v) = (c, some (.value (g v), none))
  status : ∀ c s h, f.func c (.status s h) = (c, some (.status s h, none))

theorem ChainingFunc.map_passes (func : T → StatusOr R) (g : T → R) (x : Listing T)
    (h : ∀ v ∈ x.values, func v = .value (g v)) : (ChainingFunc.map func).Passes g x where
  request _ := rfl
  value c v hv := by
    simp only [ChainingFunc.map, h v hv]
    rfl
  status _ _ _ := rfl

theorem ChainingFunc.staticCast_passes (cast : T → R) (x : Listing T) :
    (ChainingFunc.staticCast cast).Passes cast x where
  request _ := rfl
  value _ _ _ := rfl
  status _ _ _ := rfl

namespace ChainingStream

section Mapped

variable (g : T → R)

/-- The generator of the mapped listing where the one of the listing is. -/
def mapState (b : GeneratingStream (List T)) : GeneratingStream (List R) :=
  { hasEnded := b.hasEnded, state := b.state.map g, requested := b.requested,
    generating := b.generating }

def mapEvent : StatusOr T → StatusOr R
  | .value v => .value (g v)
  | .status s h => .status s h

def mapSignal : Signal T → Signal R
  | .onSubscribe => .onSubscribe
  | .onNext e => .onNext (mapEvent g e)
  | .destroy => .destroy

/-- What it does is what the other does, mapped. -/
def mapResult (r : GeneratingStream.Result (List T) T) : GeneratingStream.Result (List R) R :=
  (mapState g r.1, match r.2 with
    | .ret => .ret
    | .goto k => .goto k
    | .out o k => .out (mapSignal g o) k
    | .ask p c k => .ask p c k
    | .make i c k => .make i c k
    | .fail msg => .fail msg)

theorem step_map (x : Listing T) (vs : List T) :
    Source.step x.ending x.notOk (vs.map g) =
      (mapEvent g (Source.step x.ending x.notOk vs).1,
        (Source.step x.ending x.notOk vs).2.map g) := by
  cases vs <;> rfl

theorem isEnd_map (e : StatusOr T) : (mapEvent g e).isEnd = e.isEnd := by
  cases e <;> rfl

theorem isDone_map (e : StatusOr T) : (mapEvent g e).isDone = e.isDone := by
  cases e <;> rfl

variable (x : Listing T) (b : GeneratingStream (List T))

theorem resume_map (k : GeneratingStream.Point) :
    (x.mapValues g).stream.resume noViews (mapState g b) k =
      mapResult g (x.stream.resume noViews b k) := by
  cases k with
  | done => rfl
  | generate =>
      change (mapState g b).generate (Source.step x.ending x.notOk) =
        mapResult g (b.generate (Source.step x.ending x.notOk))
      rw [GeneratingStream.generate, GeneratingStream.generate, mapState]
      by_cases hmore : b.requested.hasRequests = true
      · rw [if_pos hmore, if_pos hmore]
        cases hremove : b.requested.remove 1 with
        | none => simp only [mapResult, mapState]
        | some c => simp only [mapResult, mapState, step_map, mapSignal, isEnd_map]
      · rw [if_neg hmore, if_neg hmore]
        rfl
  | sent isEnd =>
      change (mapState g b).sent isEnd = mapResult g (b.sent isEnd)
      rw [GeneratingStream.sent, GeneratingStream.sent, mapState]
      by_cases hended : b.hasEnded = true
      · rw [if_pos hended, if_pos hended]
        rfl
      · rw [if_neg hended, if_neg hended]
        cases isEnd <;> rfl

theorem call_map (c : Call) :
    (x.mapValues g).stream.call noViews (mapState g b) c =
      mapResult g (x.stream.call noViews b c) := by
  cases c with
  | subscribe => rfl
  | cancel => rfl
  | request n =>
      change (mapState g b).request n = mapResult g (b.request n)
      rw [GeneratingStream.request, GeneratingStream.request, mapState]
      cases hloop : b.generating <;> rfl

/-- What the generator of a listing does, the one of the mapped listing does. -/
theorem runs_map {r v : Machine.Outcome x.stream} (h : Runs x.stream r v) :
    Runs (x.mapValues g).stream (mapResult g r) (mapResult g v) := by
  induction h with
  | stop r hstop =>
      rcases r with ⟨b, a⟩
      refine .stop _ ?_
      cases a with
      | goto k => cases hstop
      | _ => rfl
  | go b k v _ ih =>
      refine Runs.go (A := (x.mapValues g).stream) (mapState g b) k _ ?_
      rw [resume_map]
      exact ih

end Mapped

/-- What a piece of code of the generator stops with if it has begun with
    `hasEnded`: it sends values of the listing, and ends when the subscriber is
    destroyed. -/
structure Sends (x : Listing T) (hasEnded : Bool)
    (r : GeneratingStream.Result (List T) T) : Prop where
  left : ∀ v ∈ r.1.state, v ∈ x.values
  action : match r.2 with
    | .out .onSubscribe _ => False
    | .out (.onNext e) _ => r.1.hasEnded = hasEnded ∧ ∀ v, e = .value v → v ∈ x.values
    | .out .destroy _ => r.1.hasEnded = true
    | .ret => r.1.hasEnded = hasEnded
    | .goto _ => r.1.hasEnded = hasEnded
    | .ask _ _ _ => True
    | .make _ _ _ => True
    | .fail _ => True

section Sends

variable {x : Listing T} {b : GeneratingStream (List T)}

theorem sends_resume (hleft : ∀ v ∈ b.state, v ∈ x.values) (k : GeneratingStream.Point) :
    Sends x b.hasEnded (x.stream.resume noViews b k) := by
  cases k with
  | done => exact ⟨hleft, rfl⟩
  | generate =>
      change Sends x b.hasEnded (b.generate (Source.step x.ending x.notOk))
      rw [GeneratingStream.generate]
      by_cases hmore : b.requested.hasRequests = true
      · rw [if_pos hmore]
        cases hremove : b.requested.remove 1 with
        | none => exact ⟨hleft, trivial⟩
        | some c =>
            cases hstate : b.state with
            | nil => exact ⟨fun v hv => absurd hv List.not_mem_nil, rfl, fun v hv => by cases hv⟩
            | cons w ws =>
                rw [hstate] at hleft
                refine ⟨fun v hv => hleft v (List.mem_cons_of_mem _ hv), rfl, fun v hv => ?_⟩
                have hsame : w = v := StatusOr.value.inj hv
                exact hleft v (hsame ▸ List.mem_cons_self ..)
      · rw [if_neg hmore]
        exact ⟨hleft, rfl⟩
  | sent isEnd =>
      change Sends x b.hasEnded (b.sent isEnd)
      rw [GeneratingStream.sent]
      by_cases hended : b.hasEnded = true
      · rw [if_pos hended]
        exact ⟨hleft, rfl⟩
      · rw [if_neg hended]
        cases isEnd <;> exact ⟨hleft, rfl⟩

theorem sends_call (hleft : ∀ v ∈ b.state, v ∈ x.values) (c : Call) (hc : c ≠ .subscribe) :
    Sends x b.hasEnded (x.stream.call noViews b c) := by
  cases c with
  | subscribe => exact absurd rfl hc
  | cancel => exact ⟨hleft, rfl⟩
  | request n =>
      change Sends x b.hasEnded (b.request n)
      rw [GeneratingStream.request]
      cases hloop : b.generating <;> exact ⟨hleft, rfl⟩

/-- The generator goes on until it stops. -/
theorem Sends.runs {hasEnded : Bool} {r v : Machine.Outcome x.stream}
    (h : Sends x hasEnded r) (hruns : Runs x.stream r v) : Sends x hasEnded v := by
  induction hruns with
  | stop r _ => exact h
  | go b k v _ ih =>
      have hsends := sends_resume h.left k
      have hsame : b.hasEnded = hasEnded := h.action
      rw [hsame] at hsends
      exact ih hsends

end Sends

/-- The stream with its base stream. -/
abbrev closed (f : ChainingFunc T R) (A : Operator T Empty NoParts) : Operator R Empty NoParts :=
  nest subscriptionCheck (component f) (fun _ : Unit => A)

section Tracks

variable {f : ChainingFunc T R} {A : Operator T Empty NoParts} {g : T → R} {x : Listing T}
  {late broken : Prop}
  (S : Simulation subscriptionCheck (streamProtocol T late broken) A x.stream)

abbrev St (f : ChainingFunc T R) (A : Operator T Empty NoParts) :=
  Nest.State (component f) (fun _ : Unit => A)

/-- The stack, with a call of the base below each call of the subscriber. -/
def frames (ls : List GeneratingStream.Point) : List (Frame (Point f.Rest)) :=
  ls.flatMap fun _ => [.own .done, .part 0, .own .done, .env]

def replies (ls : List GeneratingStream.Point) :
    List (Nest.Point Call Unit (Point f.Rest) (fun _ : Unit => Signal T) ×
      GeneratingStream.Point) :=
  ls.map fun l => (.reply, l)

/-- The base stands for its listing. -/
abbrev AtBase (q : StreamStage) (bA : GeneratingStream (List T))
    (ls : List GeneratingStream.Point) (parts : List (Part (fun _ : Unit => A))) : Prop :=
  At (N := fun _ : Unit => A) (i := ()) S q bA ls 0 parts

/-- The whole is where its base is. -/
inductive Tracks (g : T → R) : StreamStage → St f A → GeneratingStream (List R) →
    List (Nest.Point Call Unit (Point f.Rest) (fun _ : Unit => Signal T) ×
      GeneratingStream.Point) → Prop where
  | fresh (st : St f A) (hstate : st.state = { captured := f.captured }) (hparts : st.parts = [])
      (hstack : st.stack = []) : Tracks g .fresh st { state := x.values.map g } []
  | live (q : StreamStage) (bA : GeneratingStream (List T)) (ls : List GeneratingStream.Point)
      (st : St f A) (hq : q ≠ .fresh) (hbase : AtBase S q bA ls st.parts)
      (hsubscription : st.state.baseSubscription = some 0)
      (hended : st.state.hasEnded = bA.hasEnded) (hleft : ∀ v ∈ bA.state, v ∈ x.values)
      (hstack : st.stack = frames ls) : Tracks g q st (mapState g bA) (replies ls)

variable {S} {q : StreamStage} {st : St f A} {bA : GeneratingStream (List T)}
  {ls : List GeneratingStream.Point}
  {ks : List (Nest.Point Call Unit (Point f.Rest) (fun _ : Unit => Signal T) ×
    GeneratingStream.Point)}

/-- The whole goes on to where it has done the same. -/
def Goes (S : Simulation subscriptionCheck (streamProtocol T late broken) A x.stream)
    (f : ChainingFunc T R) (g : T → R) (q : StreamStage)
    (ks : List (Nest.Point Call Unit (Point f.Rest) (fun _ : Unit => Signal T) ×
      GeneratingStream.Point))
    (r : Machine.Outcome (x.mapValues g).stream) (v : Machine.Outcome (closed f A)) : Prop :=
  ∃ v', Runs (x.mapValues g).stream r v' ∧
    Match (streamProtocol R late broken) (A := closed f A) (B := (x.mapValues g).stream)
      (Tracks S g) q ks v v'

/-- A call that is handled returns. -/
theorem returns {Inv : Nest.Result (component f) (fun _ : Unit => A) → Prop}
    {rest : List (Frame (Point f.Rest))} (hstack : st.stack = .own .done :: rest)
    (h : Leads subscriptionCheck Inv (back { st with stack := rest })) :
    Leads subscriptionCheck Inv (back st) :=
  Leads.own hstack (Leads.ret h)

/-- The protocol does not tell the events apart that are mapped to each other. -/
theorem after_map (o : Signal T) :
    (streamProtocol R late broken).after q (mapSignal g o) =
      (streamProtocol T late broken).after q o := by
  cases o with
  | onSubscribe => rfl
  | destroy => rfl
  | onNext e => simp only [streamProtocol, mapSignal, isDone_map, isEnd_map]

theorem after_ne_fresh (hq : q ≠ .fresh) (o : Signal T) :
    (streamProtocol T late broken).after q o ≠ .fresh := by
  cases o with
  | onSubscribe => simp only [streamProtocol, ne_eq, reduceCtorEq, not_false_eq_true]
  | destroy => exact hq
  | onNext e =>
      simp only [streamProtocol]
      split
      · simp only [ne_eq, reduceCtorEq, not_false_eq_true]
      · split
        · simp only [ne_eq, reduceCtorEq, not_false_eq_true]
        · exact hq

/-- What the base makes of an event is sent. -/
theorem onNext_code (hf : f.Passes g x) (views : Nat → Bool) (s : ChainingStream f.Captured)
    (e : StatusOr T) (he : ∀ v, e = .value v → v ∈ x.values) :
    (component f).said views s 0 () (.onNext e) = (s, .out (.onNext (mapEvent g e)) .done) := by
  change onNext f s e = _
  cases e with
  | value v =>
      rw [onNext, hf.value _ v (he v rfl)]
      rfl
  | status st h =>
      rw [onNext, hf.status]
      rfl

/-- A call of the subscriber is passed on to the base as it is. -/
theorem call_code (hf : f.Passes g x) (views : Nat → Bool) {s : ChainingStream f.Captured}
    {c : Call} (hsubscription : s.baseSubscription = some 0) (hc : c ≠ .subscribe)
    (halive : c = .cancel → views 0 = false) :
    (component f).call views s c = (s, .ask 0 c .done) := by
  cases c with
  | subscribe => exact absurd rfl hc
  | request n =>
      change request f s n = _
      rw [request, hsubscription, hf.request]
  | cancel =>
      change cancel f views s = _
      simp only [cancel, hsubscription, halive rfl, Bool.false_eq_true, if_false]

/-- Whatever the base does when it is called or returned to, the whole does. -/
theorem base_answers (hf : f.Passes g x) {kA : List (A.Point × GeneratingStream.Point)}
    {r : Machine.Outcome A} {r' : Machine.Outcome x.stream}
    (hanswers : Answers (streamProtocol T late broken) S.Rel q kA r r')
    (hsends : Sends x bA.hasEnded r') (hq : q ≠ .fresh) (hlt : 0 < st.parts.length)
    (hsubscription : st.state.baseSubscription = some 0)
    (hended : st.state.hasEnded = bA.hasEnded)
    (hstack : st.stack = .own .done :: .env :: frames (kA.map Prod.snd)) :
    Leads subscriptionCheck (Goes S f g q (replies (kA.map Prod.snd)) (mapResult g r'))
      (Nest.answer st 0 () (kA.map Prod.fst) r) := by
  have hruns := hanswers
  rcases hruns with ⟨-, v', -, hv', -⟩
  have hfail : (streamProtocol T late broken).broken q → ∀ (st : St f A) msg,
      Goes S f g q (replies (kA.map Prod.snd)) (mapResult g r') (st, .fail msg) :=
    fun hbroken st msg => ⟨_, runs_map g x hv', .fail _ _ _ hbroken⟩
  refine Leads.answer_cases hanswers hlt hfail ?_ ?_
  · intro b' st' hb' hmoves hat
    have hsent := hsends.runs hb'
    refine returns (hmoves.stack_eq.trans hstack) (Leads.env rfl ?_)
    refine ⟨_, runs_map g x hb', ?_⟩
    refine .ret _ _ (.live q b' _ _ hq hat (hmoves.state ▸ hsubscription) ?_ hsent.left rfl)
    exact (congrArg ChainingStream.hasEnded hmoves.state).trans
      (hended.trans (Eq.symm hsent.action))
  · intro b' o l st' hb' hmoves hat
    have hsent := hsends.runs hb'
    have hbelow := hmoves.stack_eq
    rw [hstack] at hbelow
    have haction := hsent.action
    have hafter : (streamProtocol R late broken).after q (mapSignal g o) =
      (streamProtocol T late broken).after q o := after_map o
    have hstate : st'.state.baseSubscription = some 0 := hmoves.state ▸ hsubscription
    -- the base calls its subscriber, which is this stream
    cases o with
    | onSubscribe => exact haction.elim
    | destroy =>
        refine Leads.stop rfl ⟨_, runs_map g x hb', .out _ _ _ _ _ ?_⟩
        refine .live q b' (l :: kA.map Prod.snd) _ hq hat hstate (Eq.symm haction) hsent.left ?_
        exact congrArg _ hbelow
    | onNext e =>
        rw [onNext_code hf _ _ e haction.2]
        refine .stop rfl ⟨_, runs_map g x hb', .out _ _ _ _ _ ?_⟩
        change Tracks S g ((streamProtocol R late broken).after q (mapSignal g (.onNext e))) _ _ _
        rw [hafter]
        refine .live _ b' (l :: kA.map Prod.snd) _ (after_ne_fresh hq _) hat hstate ?_
          hsent.left ?_
        · exact (congrArg ChainingStream.hasEnded hmoves.state).trans
            (hended.trans (Eq.symm haction.1))
        · exact congrArg _ hbelow

/-- The subscriber subscribes, and the base hands out its subscription at once. -/
theorem subscribe_leads (hstate : st.state = { captured := f.captured }) (hparts : st.parts = [])
    (hstack : st.stack = []) :
    Leads subscriptionCheck
      (Goes S f g .fresh [] ((x.mapValues g).stream.call noViews { state := x.values.map g }
        .subscribe))
      (Nest.call subscriptionCheck st .subscribe) := by
  have hcode : Nest.call subscriptionCheck st .subscribe =
      ({ st with
          parts := st.parts ++ [{ kind := (), state := A.start, waiting := [] }]
          stack := .own .done :: .env :: st.stack
          log := .ask st.parts.length .subscribe :: .call .subscribe :: st.log },
        .goto (.ask st.parts.length .subscribe)) := rfl
  rw [hcode]
  have hnew := At.create (N := fun _ : Unit => A) (i := ()) S st.parts
  rw [hparts] at hnew ⊢
  refine Leads.ask_out hnew rfl rfl GeneratingStream.runs_subscribe
    (fun hbroken => absurd hbroken.1 (by simp only [streamProtocol, reduceCtorEq,
      not_false_eq_true])) fun st1 hmoves hat => ?_
  refine .stop rfl ⟨_, GeneratingStream.runs_subscribe, .out _ _ _ _ _ ?_⟩
  have hsame : st1.state = st.state := hmoves.state
  have hbelow := hmoves.stack_eq
  rw [hstack] at hbelow
  refine .live .live { state := x.values } [.done] _ ?_ hat rfl ?_ (fun v hv => hv) ?_
  · simp only [ne_eq, reduceCtorEq, not_false_eq_true]
  · change st1.state.hasEnded = false
    rw [hsame, hstate]
  · exact congrArg _ hbelow

/-- The subscriber calls the stream. -/
theorem Tracks.call (hf : f.Passes g x) {b : GeneratingStream (List R)} (h : Tracks S g q st b ks)
    (c : Call) (hallow : (streamProtocol R late broken).allow q c)
    (hgate : subscriptionCheck st.state.hasEnded c = none) :
    Leads subscriptionCheck (Goes S f g q ks ((x.mapValues g).stream.call noViews b c))
      (Nest.call subscriptionCheck st c) := by
  cases h with
  | fresh _ hstate hparts hstack =>
      cases c with
      | subscribe => exact subscribe_leads hstate hparts hstack
      | request n => exact absurd rfl hallow.1
      | cancel =>
          rcases hallow with hlive | hfailed
          · cases hlive
          · cases hfailed.1
  | live _ bA ls _ hq hbase hsubscription hended hleft hstack =>
      rw [call_map]
      have hgate' := hgate
      rw [hended] at hgate'
      have hlook : st.views 0 = bA.hasEnded := hbase.view
      -- the call is passed on to the base as it is
      have hne : c ≠ .subscribe := by
        rintro rfl
        exact hq hallow
      have hpassed : Nest.call subscriptionCheck st c =
          perform subscriptionCheck
            { st with stack := .env :: st.stack, log := .call c :: st.log }
            (st.state, .ask 0 c .done) := by
        rw [Nest.call, call_code hf st.views hsubscription hne]
        rintro rfl
        rw [hlook]
        cases hdead : bA.hasEnded with
        | false => rfl
        | true =>
            rw [hdead, subscriptionCheck, if_pos rfl] at hgate'
            cases hgate'
      rw [hpassed]
      refine Leads.ask (S := S) (i := ()) hbase hgate' (Leads.ask_go (S := S) (i := ()) hbase ?_
        hgate' fun kA r hls hanswers => ?_)
      · cases c with
        | subscribe => exact absurd rfl hne
        | request n => exact hallow
        | cancel => exact hallow
      · subst hls
        exact base_answers hf hanswers (sends_call hleft c hne) hq hbase.lt hsubscription hended
          (congrArg (fun rest => .own .done :: .env :: rest) hstack)

/-- The subscriber returns. -/
theorem Tracks.resume (hf : f.Passes g x) {b : GeneratingStream (List R)}
    {k : Nest.Point Call Unit (Point f.Rest) (fun _ : Unit => Signal T)}
    {l : GeneratingStream.Point} (h : Tracks S g q st b ((k, l) :: ks)) :
    k = .reply ∧ Leads subscriptionCheck
      (Goes S f g q ks ((x.mapValues g).stream.resume noViews b l)) (back st) := by
  generalize hks : (k, l) :: ks = ks' at h
  cases h with
  | fresh => cases hks
  | live _ bA ls _ hq hbase hsubscription hended hleft hstack =>
      cases ls with
      | nil => cases hks
      | cons l' ls =>
          rcases List.cons.inj hks with ⟨hpoint, rfl⟩
          rcases Prod.mk.inj hpoint with ⟨rfl, rfl⟩
          refine ⟨rfl, returns hstack ?_⟩
          rw [resume_map]
          refine Leads.part_go (S := S) (i := ()) rfl hbase fun kA r hls hanswers => ?_
          subst hls
          exact base_answers hf hanswers (sends_resume hleft l) hq hbase.lt hsubscription hended rfl

end Tracks

/-- `Map` and `StaticCast` stand for the mapped listing if their base stream
    stands for its own. -/
def simulation {f : ChainingFunc T R} {A : Operator T Empty NoParts} {g : T → R} {x : Listing T}
    {late broken : Prop} (hf : f.Passes g x)
    (S : Simulation subscriptionCheck (streamProtocol T late broken) A x.stream) :
    Simulation subscriptionCheck (streamProtocol R late broken) (closed f A)
      (x.mapValues g).stream where
  Rel := Tracks S g
  start := .fresh _ rfl rfl rfl
  look := by
    intro q st b ks h
    cases h with
    | fresh _ hstate => exact congrArg ChainingStream.hasEnded hstate
    | live _ bA ls _ hq hbase hsubscription hended => exact hended
  call := by
    intro q st b ks c h hallow hgate
    exact Leads.answers (h.call hf c hallow hgate)
  resume := by
    intro q st b k l ks h
    rcases h.resume hf with ⟨rfl, hleads⟩
    exact Leads.answers hleads

end ChainingStream

end RxCppUniq
