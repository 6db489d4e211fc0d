import RxCppUniq.Flow.ChainingListing
import RxCppUniq.Flow.FlatMapListing
import RxCppUniq.Flow.ListingRuns

/-!
# Pipelines

Publishers that are built from generators with `Map`, `StaticCast` and
`FlatMap`, as deep as one likes: the base stream of a `FlatMap` and each of its
continuations are pipelines again. A pipeline is executed as one machine in
which every operator is nested in the operator that subscribes to it. What it
is for is told by its listing.

`FlatMap` cancels a continuation that has published an error. A `FlatMap` in
the continuation is destroyed by this in the call of `Send` in `Terminate`,
which uses it afterwards. The same happens when a subscriber cancels a pipeline
that has published an error. So a pipeline is safe if no continuation has a
`FlatMap` in it and fails, and its subscriber is one that does not cancel once
it has received an end.

## Main definitions

* `Pipeline`: How the publishers are composed.
* `Pipeline.machine`: The streams, nested in each other.
* `Pipeline.listing`: What they publish.
* `Pipeline.Safe`: No continuation with a `FlatMap` in it fails.

## Theorems

* `Pipeline.behaves`: A pipeline delivers its listing.
* `Pipeline.behaves_safe`: A safe pipeline does, and does not give up.
-/

namespace RxCppUniq

open Theory Theory.Machine

open GeneratingStream (NoParts)

/-- How publishers are composed. -/
inductive Pipeline : Type → Type 1 where
  | source {T : Type} (source : Source T) : Pipeline T
  | map {T R : Type} (p : Pipeline T) (g : T → R) : Pipeline R
  | staticCast {T R : Type} (p : Pipeline T) (cast : T → R) : Pipeline R
  | flatMap {T R : Type} (p : Pipeline T) (k : T → Pipeline R) : Pipeline R

/-- A machine for the base stream of a `FlatMap`, and one for each
    continuation. -/
abbrev FlatMapStream.machines {T R : Type} (A : Operator T Empty NoParts)
    (K : T → Operator R Empty NoParts) : FlatMapStream.Machines T R
  | none => A
  | some v => K v

namespace Pipeline

variable {T R : Type}

/-- The streams, each nested in the one that subscribes to it. -/
def machine : {T : Type} → Pipeline T → Operator T Empty NoParts
  | _, .source s => s.stream
  | _, .map p g => ChainingStream.closed (ChainingFunc.map fun v => .value (g v)) p.machine
  | _, .staticCast p cast => ChainingStream.closed (ChainingFunc.staticCast cast) p.machine
  | _, .flatMap p k =>
      FlatMapStream.closed (FlatMapStream.machines p.machine fun v => (k v).machine)

/-- The values and the status that are published. -/
def listing : {T : Type} → Pipeline T → Listing T
  | _, .source s => s.listing
  | _, .map p g => p.listing.mapValues g
  | _, .staticCast p cast => p.listing.mapValues cast
  | _, .flatMap p k => p.listing.flatMap fun v => (k v).listing

/-- There is no `FlatMap`. -/
def plain : {T : Type} → Pipeline T → Bool
  | _, .source _ => true
  | _, .map p _ => p.plain
  | _, .staticCast p _ => p.plain
  | _, .flatMap _ _ => false

/-- A continuation with a `FlatMap` in it ends in `Done`. -/
def Safe : {T : Type} → Pipeline T → Prop
  | _, .source _ => True
  | _, .map p _ => p.Safe
  | _, .staticCast p _ => p.Safe
  | _, .flatMap p k => p.Safe ∧ ∀ v, (k v).Safe ∧
      ((k v).plain = true ∨ (k v).listing.ending.code = .outOfRange)

end Pipeline

namespace Listing

variable {T : Type} {x : Listing T} {late broken : Prop}

/-- The generator of a listing that ends in `Done` sends no error. -/
def Errorless (x : Listing T) (r : Machine.Outcome x.stream) : Prop :=
  ∀ e k, r.2 = .out (.onNext e) k → e.isError = false

theorem errorless_runs (hdone : x.ending.code = .outOfRange) {r v : Machine.Outcome x.stream}
    (h : Errorless x r) (hruns : Runs x.stream r v) : Errorless x v := by
  induction hruns with
  | stop r _ => exact h
  | go b k v _ ih =>
      refine ih fun e l hout => ?_
      cases k with
      | done => cases hout
      | sent isEnd =>
          change (b.sent isEnd).2 = _ at hout
          rw [GeneratingStream.sent] at hout
          split at hout
          · cases hout
          · cases isEnd <;> cases hout
      | generate =>
          change (b.generate (Source.step x.ending x.notOk)).2 = _ at hout
          rw [GeneratingStream.generate] at hout
          split at hout
          · split at hout
            · cases hout
            · cases hstate : b.state with
              | nil =>
                  rw [hstate] at hout
                  cases hout
                  simp only [Source.step, StatusOr.isError, StatusOr.isDone, StatusOr.code, hdone]
                  rfl
              | cons w ws =>
                  rw [hstate] at hout
                  cases hout
                  rfl
          · cases hout

theorem errorless_call (b : GeneratingStream (List T)) (c : Call) :
    Errorless x (x.stream.call noViews b c) := by
  intro e k hout
  cases c with
  | subscribe => cases hout
  | cancel => cases hout
  | request n =>
      change (b.request n : GeneratingStream.Result (List T) T).2 = _ at hout
      rw [GeneratingStream.request] at hout
      split at hout <;> cases hout

theorem errorless_resume (hdone : x.ending.code = .outOfRange) (b : GeneratingStream (List T))
    (k : GeneratingStream.Point) {v : Machine.Outcome x.stream}
    (hruns : Runs x.stream (x.stream.resume noViews b k) v) : Errorless x v :=
  errorless_runs hdone (fun e l hout => by cases hout) (.go b k v hruns)

/-- A machine that stands for a listing without an error does not come to the
    stage in which it might be cancelled late, or give up. -/
theorem answers_unfailing {late' broken' : Prop} {A : Operator T Empty NoParts}
    {Rel : StreamStage → A.State → GeneratingStream (List T) →
      List (A.Point × GeneratingStream.Point) → Prop}
    {q : StreamStage} {ks : List (A.Point × GeneratingStream.Point)} {r : Machine.Outcome A}
    {r' : Machine.Outcome x.stream} (hq : q ≠ .failed)
    (h : Answers (streamProtocol T late broken) (A := A) (B := x.stream) Rel q ks r r')
    (herrorless : ∀ v, Runs x.stream r' v → Errorless x v) :
    Answers (streamProtocol T late' broken') (A := A) (B := x.stream)
      (fun q a b ks => Rel q a b ks ∧ q ≠ .failed) q ks r r' := by
  rcases h with ⟨v, v', hv, hv', hmatch⟩
  have hnone := herrorless v' hv'
  refine ⟨v, v', hv, hv', ?_⟩
  cases hmatch with
  | ret a b hrel => exact .ret a b ⟨hrel, hq⟩
  | fail a msg v' hbroken => exact absurd hbroken.1 hq
  | out a b o k l hrel =>
      refine .out a b o k l ⟨hrel, ?_⟩
      cases o with
      | onSubscribe => simp only [streamProtocol, ne_eq, reduceCtorEq, not_false_eq_true]
      | destroy => exact hq
      | onNext e =>
          have herror := hnone e l rfl
          simp only [streamProtocol]
          by_cases hdone : e.isDone = true
          · simp only [hdone, if_true, ne_eq, reduceCtorEq, not_false_eq_true]
          · rw [Bool.not_eq_true] at hdone
            have hend : e.isEnd = false := by
              rw [StatusOr.isError, hdone, Bool.not_false, Bool.and_true] at herror
              exact herror
            rw [if_neg (Bool.eq_false_iff.mp hdone), if_neg (Bool.eq_false_iff.mp hend)]
            exact hq

/-- What stands for such a listing does so for any subscriber. -/
def unfailing (hdone : x.ending.code = .outOfRange) (late' broken' : Prop)
    {A : Operator T Empty NoParts}
    (S : Simulation subscriptionCheck (streamProtocol T late broken) A x.stream) :
    Simulation subscriptionCheck (streamProtocol T late' broken') A x.stream where
  Rel q a b ks := S.Rel q a b ks ∧ q ≠ .failed
  start := by
    refine ⟨S.start, ?_⟩
    simp only [streamProtocol, ne_eq, reduceCtorEq, not_false_eq_true]
  look q a b ks h := S.look q a b ks h.1
  call := by
    intro q a b ks c h hallow hgate
    refine answers_unfailing h.2 (S.call q a b ks c h.1 ?_ hgate) fun v hv => ?_
    · cases c with
      | subscribe => exact hallow
      | request n => exact hallow
      | cancel => exact Or.inl (hallow.resolve_right fun hfailed => h.2 hfailed.1)
    · exact errorless_runs hdone (errorless_call b c) hv
  resume := by
    intro q a b k l ks h
    exact answers_unfailing h.2 (S.resume q a b k l ks h.1) fun v hv => errorless_resume
        hdone b l hv

end Listing

namespace Pipeline

variable {T : Type}

/-- A pipeline without a `FlatMap` stands for its listing, also if it is
    cancelled after an error. -/
theorem exists_simulation_plain (p : Pipeline T) (hplain : p.plain = true) (late broken : Prop) :
    Nonempty (Simulation subscriptionCheck (streamProtocol T late broken) p.machine
      p.listing.stream) := by
  induction p with
  | source s => exact ⟨s.simulation late broken⟩
  | map p g ih =>
      rcases ih hplain with ⟨S⟩
      exact ⟨ChainingStream.simulation (ChainingFunc.map_passes _ g p.listing fun _ _ => rfl) S⟩
  | staticCast p cast ih =>
      rcases ih hplain with ⟨S⟩
      exact ⟨ChainingStream.simulation (ChainingFunc.staticCast_passes cast p.listing) S⟩
  | flatMap p k _ _ => cases hplain

/-- Every pipeline stands for its listing until it has published an error. -/
theorem exists_simulation (p : Pipeline T) :
    Nonempty (Simulation subscriptionCheck (streamProtocol T True True) p.machine
      p.listing.stream) := by
  induction p with
  | source s => exact ⟨s.simulation True True⟩
  | map p g ih =>
      rcases ih with ⟨S⟩
      exact ⟨ChainingStream.simulation (ChainingFunc.map_passes _ g p.listing fun _ _ => rfl) S⟩
  | staticCast p cast ih =>
      rcases ih with ⟨S⟩
      exact ⟨ChainingStream.simulation (ChainingFunc.staticCast_passes cast p.listing) S⟩
  | flatMap p k ih ihk =>
      rcases ih with ⟨S⟩
      exact ⟨FlatMapStream.simulation S (fun v => Classical.choice (ihk v)) id⟩

/-- A safe pipeline does so to its end. -/
theorem exists_simulation_safe (p : Pipeline T) (hsafe : p.Safe) :
    Nonempty (Simulation subscriptionCheck (streamProtocol T False False) p.machine
      p.listing.stream) := by
  induction p with
  | source s => exact ⟨s.simulation False False⟩
  | map p g ih =>
      rcases ih hsafe with ⟨S⟩
      exact ⟨ChainingStream.simulation (ChainingFunc.map_passes _ g p.listing fun _ _ => rfl) S⟩
  | staticCast p cast ih =>
      rcases ih hsafe with ⟨S⟩
      exact ⟨ChainingStream.simulation (ChainingFunc.staticCast_passes cast p.listing) S⟩
  | flatMap p k ih ihk =>
      rcases ih hsafe.1 with ⟨S⟩
      have hcont : ∀ v, Nonempty (Simulation subscriptionCheck (streamProtocol _ True False)
          (k v).machine (k v).listing.stream) := by
        intro v
        rcases hsafe.2 v with ⟨hv, hplain | hdone⟩
        · exact (k v).exists_simulation_plain hplain True False
        · rcases ihk v hv with ⟨SK⟩
          exact ⟨Listing.unfailing hdone True False SK⟩
      exact ⟨FlatMapStream.simulation S (fun v => Classical.choice (hcont v)) id⟩

/-- In every run a pipeline delivers its listing. It gives up only after it has
    published an error. -/
theorem behaves (p : Pipeline T) (st : Open p.machine)
    (h : Open.Reach subscriptionCheck (LogRules Subscribing) st) :
    p.listing.Behaves True st := by
  rcases p.exists_simulation with ⟨S⟩
  exact p.listing.behaves_of_simulation S st h

/-- Two values, each of which is followed by its tenfold. -/
def tens : Pipeline Nat :=
  .flatMap (.source (.ofValues [1, 2])) fun v => .source (.ofValues [v, 10 * v])

theorem tens_safe : tens.Safe :=
  ⟨trivial, fun _ => ⟨trivial, Or.inl rfl⟩⟩

/-- Two events are asked for in the call of `OnSubscribe`, and five more while the
    first is handled. -/
theorem behaves_tens : ∃ st : Open tens.machine,
    received st.log = [.value 1, .value 10, .value 2, .value 20, .done] ∧
      tens.listing.Behaves True st := by
  rcases exists_reach_of_converse (A := tens.machine) subscriptionCheck Subscribing 20
    [.call .subscribe, .call (.request 2), .call (.request 5), .reply, .reply, .reply, .reply]
    (fun st => decide (received st.log = [.value 1, .value 10, .value 2, .value 20, .done]))
    (by decide +kernel) with ⟨st, hreach, htest⟩
  exact ⟨st, of_decide_eq_true htest, behaves _ st hreach⟩

/-- A safe pipeline does not give up. -/
theorem behaves_safe (p : Pipeline T) (hsafe : p.Safe) (st : Open p.machine)
    (h : Open.Reach subscriptionCheck (LogRules Subscribing) st) :
    p.listing.Behaves False st := by
  rcases p.exists_simulation_safe hsafe with ⟨S⟩
  exact p.listing.behaves_of_simulation S st h

/-- It is cancelled while its third event is handled. -/
theorem behaves_safe_tens : ∃ st : Open tens.machine,
    received st.log = [.value 1, .value 10, .value 2] ∧ cancelCalled st.log = true ∧
      tens.listing.Behaves False st := by
  rcases exists_reach_of_converse (A := tens.machine) subscriptionCheck Subscribing 20
    [.call .subscribe, .reply, .call (.request 5), .reply, .reply, .call .cancel, .reply, .reply]
    (fun st => decide (received st.log = [.value 1, .value 10, .value 2] ∧
      cancelCalled st.log = true)) (by decide +kernel) with ⟨st, hreach, htest⟩
  rcases of_decide_eq_true htest with ⟨hreceived, hcancel⟩
  exact ⟨st, hreceived, hcancel, behaves_safe tens tens_safe st hreach⟩

end Pipeline

end RxCppUniq
