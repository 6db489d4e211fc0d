import RxCppUniq.Reactive.Source
import RxCppUniq.Theory.Leads

/-!
# Listings

A stream that publishes a list of values and then a status. It is what the
streams of synchronous operators are compared with: whatever they are built
from, towards their subscriber they do what the generator does that steps
through the list.

A subscriber requests at least one event at a time. It does not cancel when
the end was published, unless it is held to be allowed to do so after an error;
a stream may then give up.

## Main definitions

* `Listing`: The values and the status.
* `Listing.stream`: The generator that steps through them.
* `StreamStage`, `streamProtocol`: What a subscriber may do.

## Theorems

* `Listing.runs_value`, `Listing.runs_status`, `Listing.runs_none`: A round of
  the loop.
* `Source.simulation`: Every generator with finitely many values stands for its
  listing.
-/

namespace RxCppUniq

open Theory Theory.Machine

open GeneratingStream (NoParts)

/-- Some values, and a status after them. -/
@[ext] structure Listing (T : Type) where
  values : List T
  ending : Status
  notOk : ending.code ≠ .ok

/-- How far a stream has got. -/
inductive StreamStage where
  /-- It was not subscribed to. -/
  | fresh
  /-- It has handed out the subscription. -/
  | live
  /-- It has published `Done`. -/
  | done
  /-- It has published an error. -/
  | failed
deriving DecidableEq

/-- What a subscriber may do with a stream. It may cancel one that has
    published an error if `late` holds, and a stream may give up after an error
    if `broken` holds. -/
def streamProtocol (T : Type) (late broken : Prop) : Protocol Call (Signal T) where
  Stage := StreamStage
  start := .fresh
  allow q
    | .subscribe => q = .fresh
    | .request n => q ≠ .fresh ∧ 1 ≤ n ∧ n ≤ kMax
    | .cancel => q = .live ∨ q = .failed ∧ late
  after q
    | .onSubscribe => .live
    | .onNext e => if e.isDone then .done else if e.isEnd then .failed else q
    | .destroy => q
  broken q := q = .failed ∧ broken

namespace GeneratingStream

variable {S T : Type} {generator : S → StatusOr T × S} {initial : S} {s : GeneratingStream S}

/-- A round of the loop in which an event is made. -/
theorem runs_event {b : RequestBalance} (hmore : s.requested.hasRequests = true)
    (hb : s.requested.remove 1 = some b) :
    Runs (component generator initial) (s, .goto .generate)
      ({ s with requested := b, state := (generator s.state).2 },
        .out (.onNext (generator s.state).1) (.sent (generator s.state).1.isEnd)) := by
  refine .go _ _ _ ?_
  change Runs (component generator initial) (s.generate generator) _
  rw [generate, if_pos hmore]
  simp only [hb]
  exact Runs.stop (A := component generator initial) _ rfl

/-- Nothing more is asked for. -/
theorem runs_none (hno : s.requested.hasRequests = false) :
    Runs (component generator initial) (s, .goto .generate)
      ({ s with generating := false }, .ret) := by
  refine .go _ _ _ ?_
  change Runs (component generator initial) (s.generate generator) _
  rw [generate, hno, if_neg Bool.false_ne_true]
  exact Runs.stop (A := component generator initial) _ rfl

/-- A request while the loop is running. -/
theorem runs_busy (n : Nat) (hbusy : s.generating = true) :
    Runs (component generator initial) ((component generator initial).call noViews s (.request n))
      ({ s with requested := s.requested.add n }, .ret) := by
  have hcode : (s.request n : Result S T) = ({ s with requested := s.requested.add n }, .ret) := by
    simp only [request, hbusy, if_true]
  change Runs (component generator initial) (s.request n) _
  rw [hcode]
  exact Runs.stop (A := component generator initial) _ rfl

/-- A request that starts the loop. -/
theorem runs_request {n : Nat} {v : Machine.Outcome (component generator initial)}
    (hidle : s.generating = false)
    (h : Runs (component generator initial)
      ({ s with requested := s.requested.add n, generating := true }, .goto .generate) v) :
    Runs (component generator initial) ((component generator initial).call noViews s (.request n))
      v := by
  have hcode : (s.request n : Result S T) =
      ({ s with requested := s.requested.add n, generating := true }, .goto .generate) := by
    simp only [request, hidle, Bool.false_eq_true, if_false]
  change Runs (component generator initial) (s.request n) _
  rwa [hcode]

theorem runs_cancel :
    Runs (component generator initial) ((component generator initial).call noViews s .cancel)
      ({ s with hasEnded := true }, .out .destroy .done) :=
  Runs.stop (A := component generator initial) _ rfl

theorem runs_subscribe :
    Runs (component generator initial) ((component generator initial).call noViews s .subscribe)
      (s, .out .onSubscribe .done) :=
  Runs.stop (A := component generator initial) _ rfl

theorem runs_done :
    Runs (component generator initial) ((component generator initial).resume noViews s .done)
      (s, .ret) :=
  Runs.stop (A := component generator initial) _ rfl

/-- The subscriber returns from a value, and the loop goes on. -/
theorem runs_sent {v : Machine.Outcome (component generator initial)} (halive : s.hasEnded = false)
    (h : Runs (component generator initial) (s, .goto .generate) v) :
    Runs (component generator initial)
      ((component generator initial).resume noViews s (.sent false)) v := by
  have hcode : (s.sent false : Result S T) = (s, .goto .generate) := by
    rw [sent, halive]
    rfl
  change Runs (component generator initial) (s.sent false) _
  rwa [hcode]

/-- It returns from the last event, and is destroyed. -/
theorem runs_last (halive : s.hasEnded = false) :
    Runs (component generator initial)
      ((component generator initial).resume noViews s (.sent true))
      ({ s with hasEnded := true }, .out .destroy .done) := by
  have hcode : (s.sent true : Result S T) = ({ s with hasEnded := true }, .out .destroy .done) := by
    rw [sent, halive]
    rfl
  change Runs (component generator initial) (s.sent true) _
  rw [hcode]
  exact Runs.stop (A := component generator initial) _ rfl

/-- It returns to a stream that is destroyed. -/
theorem runs_ended (isEnd : Bool) (hended : s.hasEnded = true) :
    Runs (component generator initial)
      ((component generator initial).resume noViews s (.sent isEnd)) (s, .ret) := by
  have hcode : (s.sent isEnd : Result S T) = (s, .ret) := by
    rw [sent, hended, if_pos rfl]
  change Runs (component generator initial) (s.sent isEnd) _
  rw [hcode]
  exact Runs.stop (A := component generator initial) _ rfl

end GeneratingStream

namespace Listing

variable {T : Type}

/-- The events. -/
def events (x : Listing T) : List (StatusOr T) :=
  valuesThen x.values x.ending x.notOk

/-- What is left of a listing when only these values are. -/
abbrev rest (x : Listing T) (values : List T) : Listing T :=
  { x with values := values }

theorem ending_of_rest {x y : Listing T} {vs ws : List T} (h : x.rest vs = y.rest ws) :
    x.ending = y.ending := by
  have hending := congrArg Listing.ending h
  exact hending

/-- Listings that end in the same way differ in their values. -/
theorem rest_values {x y : Listing T} {vs ws : List T} (h : x.rest vs = y.rest ws) :
    x.rest y.values = y :=
  Listing.ext rfl (ending_of_rest h)

/-- One listing after the other, unless the first fails. -/
def andThen (x y : Listing T) : Listing T :=
  if x.ending.code = .outOfRange then { y with values := x.values ++ y.values } else x

/-- Each value is replaced by a listing. -/
def flatMap {R : Type} (x : Listing T) (f : T → Listing R) : Listing R :=
  x.values.foldr (fun v rest => (f v).andThen rest) { x with values := [] }

/-- A function is applied to each value. -/
def mapValues {R : Type} (x : Listing T) (g : T → R) : Listing R :=
  { x with values := x.values.map g }

theorem flatMap_nil {R : Type} (x : Listing T) (f : T → Listing R) :
    (x.rest []).flatMap f = { x with values := [] } := rfl

theorem flatMap_cons {R : Type} (x : Listing T) (f : T → Listing R) (v : T) (vs : List T) :
    (x.rest (v :: vs)).flatMap f = (f v).andThen ((x.rest vs).flatMap f) := rfl

theorem andThen_cons (x y : Listing T) (v : T) (vs : List T) :
    (x.rest (v :: vs)).andThen y = ((x.rest vs).andThen y).rest
        (v :: ((x.rest vs).andThen y).values) := by
  unfold andThen
  by_cases hdone : x.ending.code = .outOfRange
  · simp only [hdone, if_true, List.cons_append]
  · simp only [hdone, if_false]

theorem andThen_done (x y : Listing T) (hdone : x.ending.code = .outOfRange) :
    (x.rest []).andThen y = y := by
  rw [andThen, if_pos hdone, List.nil_append]

theorem andThen_error (x y : Listing T) (vs : List T) (herror : x.ending.code ≠ .outOfRange) :
    (x.rest vs).andThen y = x.rest vs := by
  rw [andThen, if_neg herror]

/-- The generator that steps through a listing. -/
abbrev stream (x : Listing T) : Operator T Empty NoParts :=
  GeneratingStream.component (Source.step x.ending x.notOk) x.values

/-- The stage when the status of a listing was published. -/
def last (x : Listing T) : StreamStage :=
  if x.ending.code = .outOfRange then .done else .failed

section Runs

variable {x : Listing T} {b : GeneratingStream (List T)} {c : RequestBalance}

/-- The loop makes a value. -/
theorem runs_value {v : T} {vs : List T} (hstate : b.state = v :: vs)
    (hmore : b.requested.hasRequests = true) (hc : b.requested.remove 1 = some c) :
    Runs x.stream (b, .goto .generate)
      ({ b with requested := c, state := vs }, .out (.onNext (.value v)) (.sent false)) := by
  have hevent := @GeneratingStream.runs_event _ _ (Source.step x.ending x.notOk) x.values _ _
    hmore hc
  rwa [hstate] at hevent

/-- It makes the status. -/
theorem runs_status (hstate : b.state = []) (hmore : b.requested.hasRequests = true)
    (hc : b.requested.remove 1 = some c) :
    Runs x.stream (b, .goto .generate)
      ({ b with requested := c }, .out (.onNext (.status x.ending x.notOk)) (.sent true)) := by
  have hevent := @GeneratingStream.runs_event _ _ (Source.step x.ending x.notOk) x.values _ _
    hmore hc
  have hsame : ({ b with requested := c, state := [] } : GeneratingStream (List T)) =
      { b with requested := c } := by rw [← hstate]
  rw [hstate, Source.step, StatusOr.isEnd_status, hsame] at hevent
  exact hevent

end Runs

end Listing

namespace Source

variable {T : Type} (source : Source T)

/-- The events of a source. -/
abbrev listing : Listing T where
  values := source.values
  ending := source.ending
  notOk := source.notOk

/-- The stream of a source. -/
abbrev stream : Operator T Empty NoParts :=
  GeneratingStream.component source.generator source.initial

/-- The points at which calls of the subscriber return. -/
abbrev Waiting := List (GeneratingStream.Point × GeneratingStream.Point)

/-- No call of `OnNext` is waited for. -/
def Quiet (ks : Waiting) : Prop :=
  ∀ x ∈ ks, x = (.done, .done)

/-- One call of `OnNext` is waited for. -/
inductive Sending (isEnd : Bool) : Waiting → Prop where
  | here (ks : Waiting) (h : Quiet ks) : Sending isEnd ((.sent isEnd, .sent isEnd) :: ks)
  | done (ks : Waiting) (h : Sending isEnd ks) : Sending isEnd ((.done, .done) :: ks)

/-- What the generator has not made yet is left of the listing. -/
def Left (pos : Nat) (a : GeneratingStream source.State) (b : GeneratingStream (List T)) : Prop :=
  pos ≤ source.values.length ∧ a.state = source.stateAt pos ∧ b.state = source.values.drop pos

/-- The stream of a source has got as far as the one of its listing. -/
inductive Phase (a : GeneratingStream source.State) (b : GeneratingStream (List T)) :
    Waiting → Prop where
  | idle (pos : Nat) (ks : Waiting) (hidle : a.generating = false) (hks : Quiet ks)
      (hleft : source.Left pos a b) : Phase a b ks
  | value (pos : Nat) (ks : Waiting) (hloop : a.generating = true) (hks : Sending false ks)
      (hleft : source.Left pos a b) : Phase a b ks
  | status (ks : Waiting) (hloop : a.generating = true) (hks : Sending true ks) : Phase a b ks
  | ended (ks : Waiting) (hended : a.hasEnded = true)
      (hks : ∀ x ∈ ks, x = (.done, .done) ∨ ∃ isEnd, x = (.sent isEnd, .sent isEnd)) :
      Phase a b ks

/-- The stream of a source is where the one of its listing is. -/
structure Tracks (a : GeneratingStream source.State) (b : GeneratingStream (List T))
    (ks : Waiting) : Prop where
  requested : a.requested = b.requested
  generating : a.generating = b.generating
  hasEnded : a.hasEnded = b.hasEnded
  phase : source.Phase a b ks

theorem Quiet.cons {ks : Waiting} (h : Quiet ks) : Quiet ((.done, .done) :: ks) := by
  intro x hx
  rcases List.mem_cons.mp hx with rfl | hx
  · rfl
  · exact h x hx

/-- What is waited for is one of the two. -/
theorem Sending.mem {isEnd : Bool} {ks : Waiting} (h : Sending isEnd ks) :
    ∀ x ∈ ks, x = (.done, .done) ∨ ∃ isEnd, x = (.sent isEnd, .sent isEnd) := by
  induction h with
  | here ks h =>
      intro x hx
      rcases List.mem_cons.mp hx with rfl | hx
      · exact Or.inr ⟨isEnd, rfl⟩
      · exact Or.inl (h x hx)
  | done ks _ ih =>
      intro x hx
      rcases List.mem_cons.mp hx with rfl | hx
      · exact Or.inl rfl
      · exact ih x hx

section Simulation

variable {source} {late broken : Prop} {q : StreamStage} {a : GeneratingStream source.State}
  {b : GeneratingStream (List T)} {ks : Waiting}

theorem Phase.mem (h : source.Phase a b ks) :
    ∀ x ∈ ks, x = (.done, .done) ∨ ∃ isEnd, x = (.sent isEnd, .sent isEnd) := by
  cases h with
  | idle pos _ _ hks _ => exact fun x hx => Or.inl (hks x hx)
  | value pos _ _ hks _ => exact hks.mem
  | status _ _ hks => exact hks.mem
  | ended _ _ hks => exact hks

/-- One more call is waited for that has nothing to do with the loop. -/
theorem Phase.push (h : source.Phase a b ks) : source.Phase a b ((.done, .done) :: ks) := by
  cases h with
  | idle pos _ hidle hks hleft => exact .idle pos _ hidle hks.cons hleft
  | value pos _ hloop hks hleft => exact .value pos _ hloop (.done _ hks) hleft
  | status _ hloop hks => exact .status _ hloop (.done _ hks)
  | ended _ hended hks =>
      refine .ended _ hended fun x hx => ?_
      rcases List.mem_cons.mp hx with rfl | hx
      · exact Or.inl rfl
      · exact hks x hx

/-- Such a call returns. -/
theorem Phase.pop (h : source.Phase a b ((.done, .done) :: ks)) : source.Phase a b ks := by
  cases h with
  | idle pos _ hidle hks hleft =>
      exact .idle pos _ hidle (fun x hx => hks x (List.mem_cons_of_mem _ hx)) hleft
  | value pos _ hloop hks hleft =>
      cases hks with
      | done _ hks => exact .value pos _ hloop hks hleft
  | status _ hloop hks =>
      cases hks with
      | done _ hks => exact .status _ hloop hks
  | ended _ hended hks => exact .ended _ hended fun x hx => hks x (List.mem_cons_of_mem _ hx)

/-- The loop does what the one of the listing does. -/
theorem generate_answers {pos : Nat} (hrequested : a.requested = b.requested)
    (hended : a.hasEnded = b.hasEnded) (hleft : source.Left pos a b) (hks : Quiet ks)
    (hloop : a.generating = true) (hloop' : b.generating = true) :
    Answers (streamProtocol T late broken) (A := source.stream) (B := source.listing.stream)
      (fun _ => source.Tracks) q ks (a, .goto .generate) (b, .goto .generate) := by
  rcases hleft with ⟨hpos, ha, hb⟩
  by_cases hmore : a.requested.hasRequests = true
  · rcases RequestBalance.remove_isSome _ ((RequestBalance.hasRequests_iff _).mp hmore)
      with ⟨c, hc⟩
    have hmore' := hmore
    have hc' := hc
    rw [hrequested] at hmore' hc'
    have hevent := @GeneratingStream.runs_event _ _ source.generator source.initial _ _ hmore hc
    have hgenerating := hloop.trans hloop'.symm
    -- both make the next value, or both the end
    by_cases hlt : pos < source.values.length
    · rw [ha, source.generator_value pos hlt] at hevent
      rw [List.drop_eq_getElem_cons hlt] at hb
      refine ⟨_, _, hevent, Listing.runs_value hb hmore' hc', .out _ _ _ _ _ ?_⟩
      refine ⟨rfl, hgenerating, hended, .value (pos + 1) _ hloop (.here _ hks) ?_⟩
      exact ⟨hlt, source.stateAt_succ pos, rfl⟩
    · have hlast : pos = source.values.length := by omega
      rw [ha, hlast, source.generator_ending, StatusOr.isEnd_status] at hevent
      rw [hlast, List.drop_length] at hb
      refine ⟨_, _, hevent, Listing.runs_status (x := source.listing) hb hmore' hc', ?_⟩
      refine .out _ _ _ _ _ ?_
      exact ⟨rfl, hgenerating, hended, .status _ hloop (.here _ hks)⟩
  · rw [Bool.not_eq_true] at hmore
    refine ⟨_, _, GeneratingStream.runs_none hmore, GeneratingStream.runs_none
        (by rwa [← hrequested]), .ret _ _ ?_⟩
    exact ⟨hrequested, rfl, hended, .idle pos _ rfl hks ⟨hpos, ha, hb⟩⟩

/-- A request is answered as by the listing. -/
theorem request_answers (h : source.Tracks a b ks) (halive : a.hasEnded = false) (n : Nat) :
    Answers (streamProtocol T late broken) (A := source.stream) (B := source.listing.stream)
      (fun _ => source.Tracks) q ks (source.stream.call noViews a (.request n))
      (source.listing.stream.call noViews b (.request n)) := by
  rcases h with ⟨hrequested, hgenerating, hended, hphase⟩
  have hadd : a.requested.add n = b.requested.add n := by rw [hrequested]
  by_cases hloop : a.generating = true
  · have hloop' := hgenerating.symm.trans hloop
    refine ⟨_, _, GeneratingStream.runs_busy n hloop, GeneratingStream.runs_busy n hloop',
        .ret _ _ ?_⟩
    refine ⟨hadd, hgenerating, hended, ?_⟩
    cases hphase with
    | idle pos _ hidle _ _ => exact absurd (hidle.symm.trans hloop) Bool.false_ne_true
    | value pos _ _ hks hleft => exact .value pos _ hloop hks hleft
    | status _ _ hks => exact .status _ hloop hks
    | ended _ hended _ => exact absurd (halive.symm.trans hended) Bool.false_ne_true
  · rw [Bool.not_eq_true] at hloop
    have hloop' := hgenerating.symm.trans hloop
    cases hphase with
    | idle pos _ _ hks hleft =>
        rcases generate_answers (a := { a with requested := a.requested.add n, generating := true })
          (b := { b with requested := b.requested.add n, generating := true }) hadd hended hleft hks
          rfl rfl with ⟨v, v', hv, hv', hmatch⟩
        exact ⟨v, v', GeneratingStream.runs_request hloop hv, GeneratingStream.runs_request hloop'
            hv', hmatch⟩
    | value pos _ hbusy _ _ => exact absurd (hloop.symm.trans hbusy) Bool.false_ne_true
    | status _ hbusy _ => exact absurd (hloop.symm.trans hbusy) Bool.false_ne_true
    | ended _ hended _ => exact absurd (halive.symm.trans hended) Bool.false_ne_true

end Simulation

/-- Every generator with finitely many values stands for its listing. -/
def simulation (late broken : Prop) :
    Simulation subscriptionCheck (streamProtocol T late broken) source.stream
      source.listing.stream where
  Rel _ := source.Tracks
  start := by
    refine ⟨rfl, rfl, rfl, .idle 0 _ rfl (fun x hx => absurd hx List.not_mem_nil) ?_⟩
    exact ⟨Nat.zero_le _, rfl, rfl⟩
  look _ _ _ _ h := h.hasEnded
  call := by
    intro q a b ks c h _ hgate
    cases c with
    | subscribe =>
        refine ⟨_, _, Runs.stop (A := source.stream) _ rfl, GeneratingStream.runs_subscribe,
          .out _ _ _ _ _ ?_⟩
        exact ⟨h.requested, h.generating, h.hasEnded, h.phase.push⟩
    | request n =>
        refine request_answers h ?_ n
        by_cases hended : a.hasEnded = true
        · simp only [hended, subscriptionCheck, if_true, reduceCtorEq] at hgate
        · simpa only [Bool.not_eq_true] using hended
    | cancel =>
        refine ⟨_, _, Runs.stop (A := source.stream) _ rfl, GeneratingStream.runs_cancel,
          .out _ _ _ _ _ ?_⟩
        exact ⟨h.requested, h.generating, rfl, .ended _ rfl h.phase.push.mem⟩
  resume := by
    intro q a b k l ks h
    rcases h with ⟨hrequested, hgenerating, hended, hphase⟩
    rcases hphase.mem (k, l) (List.mem_cons_self ..) with hpoint | ⟨isEnd, hpoint⟩
    · rw [Prod.mk.injEq] at hpoint
      rcases hpoint with ⟨rfl, rfl⟩
      refine ⟨_, _, Runs.stop (A := source.stream) _ rfl, GeneratingStream.runs_done, .ret _ _ ?_⟩
      exact ⟨hrequested, hgenerating, hended, hphase.pop⟩
    · rw [Prod.mk.injEq] at hpoint
      rcases hpoint with ⟨rfl, rfl⟩
      by_cases hdead : a.hasEnded = true
      · refine ⟨_, _, GeneratingStream.runs_ended isEnd hdead,
          GeneratingStream.runs_ended isEnd (hended.symm.trans hdead), .ret _ _ ?_⟩
        exact ⟨hrequested, hgenerating, hended, .ended _ hdead fun x hx =>
          hphase.mem x (List.mem_cons_of_mem _ hx)⟩
      · rw [Bool.not_eq_true] at hdead
        have hdead' := hended.symm.trans hdead
        cases hphase with
        | idle pos _ _ hks _ => cases hks _ (List.mem_cons_self ..)
        | value pos _ hloop hks hleft =>
            cases hks with
            | here _ hks =>
                rcases generate_answers hrequested hended hleft hks hloop
                  (hgenerating.symm.trans hloop) with ⟨v, v', hv, hv', hmatch⟩
                exact ⟨v, v', GeneratingStream.runs_sent hdead hv,
                  GeneratingStream.runs_sent hdead' hv', hmatch⟩
        | status _ _ hks =>
            cases hks with
            | here _ hks =>
                refine ⟨_, _, GeneratingStream.runs_last hdead, GeneratingStream.runs_last hdead',
                  .out _ _ _ _ _ ?_⟩
                refine ⟨hrequested, hgenerating, rfl, .ended _ rfl fun x hx => ?_⟩
                rcases List.mem_cons.mp hx with rfl | hx
                · exact Or.inl rfl
                · exact Or.inl (hks x hx)
        | ended _ hended _ => exact absurd (hdead.symm.trans hended) Bool.false_ne_true

end Source

end RxCppUniq
