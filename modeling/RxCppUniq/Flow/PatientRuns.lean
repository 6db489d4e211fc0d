import RxCppUniq.Flow.ListingRuns

/-!
# Subscribers that do not Cancel

Some operators keep themselves alive by a lock, or fill a buffer when the
subscriber has returned from `OnSubscribe`. They do not stand for the generator of
a listing, but towards a subscriber that does not cancel they stand for one that
may begin with its loop when it is confirmed, and is not destroyed before.

## Main definitions

* `Patient`, `patientProtocol`: What such a subscriber may do.
* `PatientGenerator`, `Listing.patient`: This generator.
* `PatientGenerator.Phase`: Where it is.

## Theorems

* `Listing.patient_delivers`: It delivers the listing.
* `Listing.behaves_of_patient`: Whatever stands for it does.
-/

namespace RxCppUniq

open Theory Theory.Machine

open GeneratingStream (NoParts Made NoEnd Demanded exists_end_cons)

variable {T : Type}

/-- What a subscriber may do that does not cancel. The stage tells whether it has
    been handed the subscription. -/
def patientProtocol (T : Type) : Protocol Call (Signal T) where
  Stage := Bool
  start := false
  allow q
    | .subscribe => q = false
    | .request n => q = true ∧ 1 ≤ n ∧ n ≤ kMax
    | .cancel => False
  after q
    | .onSubscribe => true
    | .onNext _ => q
    | .destroy => q
  broken _ := False

/-- A subscriber that does not cancel. -/
def Patient (log : Log T Empty NoParts) (c : Call) : Prop :=
  Subscribing log c ∧ c ≠ .cancel

instance (log : Log T Empty NoParts) (c : Call) : Decidable (Patient log c) :=
  inferInstanceAs (Decidable (_ ∧ _))

theorem stage_patient (log : Log T Empty NoParts) :
    (patientProtocol T).stage log = subscribed log := by
  induction log with
  | nil => rfl
  | cons n log ih =>
      cases n with
      | call c => exact ih
      | ask p c => exact ih
      | said p i s => cases i
      | out s =>
          cases s with
          | onSubscribe => rfl
          | onNext e => exact ih
          | destroy => exact ih

theorem allow_of_patient (log : Log T Empty NoParts) (c : Call) (h : Patient log c) :
    (patientProtocol T).allow ((patientProtocol T).stage log) c := by
  rw [stage_patient]
  cases c with
  | subscribe =>
      rw [List.isEmpty_iff.mp h.1]
      rfl
  | request n => exact h.1
  | cancel => exact absurd rfl h.2

/-- A generator that is not destroyed before its subscriber has returned from
    `OnSubscribe`. -/
structure PatientGenerator (T : Type) where
  gen : GeneratingStream (List T)
  /-- The subscriber has not returned from `OnSubscribe`. -/
  subscribing : Bool := false
  /-- It has returned from the last event. -/
  finished : Bool := false

namespace PatientGenerator

/-- Where it waits for a call to return, and where its loop begins again. -/
inductive Point where
  | done
  | confirmed
  | generate
  | sent (isEnd : Bool)
deriving DecidableEq

abbrev Result (T : Type) := PatientGenerator T × Act Call (Signal T) Empty Point

def destroy (s : PatientGenerator T) : Result T :=
  ({ s with gen := { s.gen with hasEnded := true } }, .out .destroy .done)

def request (s : PatientGenerator T) (n : Nat) : Result T :=
  let requested := s.gen.requested.add n
  if s.gen.generating then ({ s with gen := { s.gen with requested := requested } }, .ret)
  else
    ({ s with gen := { s.gen with requested := requested, generating := true } }, .goto .generate)

/-- A round of the loop. -/
def generate (x : Listing T) (s : PatientGenerator T) : Result T :=
  if s.gen.requested.hasRequests then
    match s.gen.requested.remove 1 with
    | none => (s, .fail "negative request balance")
    | some c =>
        let r := Source.step x.ending x.notOk s.gen.state
        ({ s with gen := { s.gen with requested := c, state := r.2 } },
          .out (.onNext r.1) (.sent r.1.isEnd))
  else ({ s with gen := { s.gen with generating := false } }, .ret)

def sent (s : PatientGenerator T) (isEnd : Bool) : Result T :=
  if isEnd then
    let s := { s with finished := true }
    if s.subscribing then (s, .ret) else s.destroy
  else (s, .goto .generate)

/-- The loop may only begin now. -/
def confirmed (early : Bool) (s : PatientGenerator T) : Result T :=
  let s := { s with subscribing := false }
  if s.finished then s.destroy else if early then (s, .ret) else (s, .goto .generate)

end PatientGenerator

namespace Listing

/-- The generator of a listing which may begin before its subscriber has returned
    from `OnSubscribe`, or not. -/
abbrev patient (x : Listing T) (early : Bool) : Operator T Empty NoParts where
  State := PatientGenerator T
  Point := PatientGenerator.Point
  start := { gen := { state := x.values, generating := !early } }
  call _ s
    | .subscribe => ({ s with subscribing := true }, .out .onSubscribe .confirmed)
    | .request count => s.request count
    | .cancel => (s, .ret)
  said _ _ _ i := nomatch i
  resume _ s
    | .done => (s, .ret)
    | .confirmed => s.confirmed early
    | .generate => s.generate x
    | .sent isEnd => s.sent isEnd
  look s := s.gen.hasEnded

theorem events_ne_nil (x : Listing T) : x.events ≠ [] := by
  rw [events, valuesThen]
  exact List.append_ne_nil_of_right_ne_nil _ (List.cons_ne_nil _ _)

end Listing

/-- What was delivered does not depend on whether the loop is running. -/
theorem GeneratingStream.Made.congr {S : Type} {generator : S → StatusOr T × S} {initial : S}
    {s s' : GeneratingStream S} {log : Log T Empty NoParts} (h : Made generator initial s log)
    (hended : s'.hasEnded = s.hasEnded) (hstate : s'.state = s.state)
    (hrequested : s'.requested = s.requested) : Made generator initial s' log := by
  rcases s with ⟨_, _, _, _⟩
  rcases s' with ⟨_, _, _, _⟩
  subst hended hstate hrequested
  exact ⟨h.events, h.generated, h.demanded, h.account, h.balance, h.deleted, h.cause, h.cancelled,
    h.cut⟩

namespace PatientGenerator

variable {x : Listing T} {early : Bool}

/-- What is waited for below the loop. -/
def base (s : PatientGenerator T) : List (Callee × Point) :=
  if s.subscribing then [(.env, .confirmed)] else []

/-- Where the generator is. -/
inductive Phase (early : Bool) (st : Open (x.patient early)) : Prop where
  | fresh (hlog : st.log = []) (hturn : st.turn = .outside) (hstack : st.stack = [])
      (hstart : st.state = (x.patient early).start)
  /-- The loop has not begun yet. -/
  | late (hearly : early = false) (hturn : st.turn = .outside)
      (hstack : st.stack = [(.env, .confirmed)]) (halive : st.state.gen.hasEnded = false)
      (hloop : st.state.gen.generating = true) (hunfinished : st.state.finished = false)
      (hsubscribing : st.state.subscribing = true) (hno : NoEnd st.log)
  | idle (hlog : st.log ≠ []) (hturn : st.turn = .outside) (hstack : st.stack = st.state.base)
      (halive : st.state.gen.hasEnded = false) (hidle : st.state.gen.generating = false)
      (hunfinished : st.state.finished = false) (hno : NoEnd st.log)
      (hserved : st.state.gen.requested.hasRequests = false)
      (hearly : early = false → st.state.subscribing = false)
  | looping (hturn : st.turn = .run .generate) (hstack : st.stack = st.state.base)
      (halive : st.state.gen.hasEnded = false) (hloop : st.state.gen.generating = true)
      (hunfinished : st.state.finished = false) (hno : NoEnd st.log)
      (hearly : early = false → st.state.subscribing = false)
  /-- The subscriber handles an event. -/
  | sending (isEnd : Bool) (hturn : st.turn = .outside)
      (hstack : st.stack = (.env, .sent isEnd) :: st.state.base)
      (halive : st.state.gen.hasEnded = false) (hloop : st.state.gen.generating = true)
      (hunfinished : st.state.finished = false) (hmore : isEnd = false → NoEnd st.log)
      (hlast : isEnd = true → ∃ e ∈ received st.log, e.isEnd = true)
      (hearly : early = false → st.state.subscribing = false)
  /-- It has handled the end in `OnSubscribe`. -/
  | lingering (hturn : st.turn = .outside) (hstack : st.stack = [(.env, .confirmed)])
      (halive : st.state.gen.hasEnded = false) (hloop : st.state.gen.generating = true)
      (hfinished : st.state.finished = true)
      (hlast : ∃ e ∈ received st.log, e.isEnd = true)
  | ended (hturn : st.turn = .outside) (hstack : st.stack = [] ∨ st.stack = [(.env, .done)])
      (hended : st.state.gen.hasEnded = true)

/-- What the subscriber returns from. -/
theorem Phase.top {st : Open (x.patient early)} (h : Phase early st) (hlog : st.log ≠ [])
    (hturn : st.turn = .outside) {who : Callee} {k : Point} {rest : List (Callee × Point)}
    (htop : st.stack = (who, k) :: rest) :
    who = .env ∧ (k = .confirmed ∧ rest = [] ∨ (∃ isEnd, k = .sent isEnd) ∨
      k = .done ∧ rest = [] ∧ st.state.gen.hasEnded = true) := by
  cases h with
  | fresh hnil => exact absurd hnil hlog
  | looping hturn' => cases hturn.symm.trans hturn'
  | late _ _ hstack =>
      cases htop.symm.trans hstack
      exact ⟨rfl, Or.inl ⟨rfl, rfl⟩⟩
  | lingering _ hstack =>
      cases htop.symm.trans hstack
      exact ⟨rfl, Or.inl ⟨rfl, rfl⟩⟩
  | sending isEnd _ hstack =>
      cases htop.symm.trans hstack
      exact ⟨rfl, Or.inr (Or.inl ⟨isEnd, rfl⟩)⟩
  | idle _ _ hstack =>
      rw [htop, base] at hstack
      split at hstack
      · cases hstack
        exact ⟨rfl, Or.inl ⟨rfl, rfl⟩⟩
      · cases hstack
  | ended _ hstack hended =>
      rcases hstack with hnil | hdone
      · cases htop.symm.trans hnil
      · cases htop.symm.trans hdone
        exact ⟨rfl, Or.inr (Or.inr ⟨rfl, rfl, hended⟩)⟩

/-- It has made the first events. -/
structure Inv (early : Bool) (st : Open (x.patient early)) : Prop where
  made : Made (Source.step x.ending x.notOk) x.values st.state.gen st.log
  phase : Phase early st

namespace Inv

variable {st : Open (x.patient early)}

/-- A round of the loop, up to the call of the subscriber. -/
theorem generate (st : Open (x.patient early))
    (hmade : Made (Source.step x.ending x.notOk) x.values st.state.gen st.log) (hlog : st.log ≠ [])
    (hstack : st.stack = st.state.base) (halive : st.state.gen.hasEnded = false)
    (hloop : st.state.gen.generating = true) (hunfinished : st.state.finished = false)
    (hno : NoEnd st.log) (hearly : early = false → st.state.subscribing = false) :
    Inv early (Open.perform subscriptionCheck st (st.state.generate x)) := by
  unfold PatientGenerator.generate
  by_cases hmore : st.state.gen.requested.hasRequests = true
  · rw [if_pos hmore]
    have hpos := (RequestBalance.hasRequests_iff _).mp hmore
    rcases RequestBalance.remove_isSome _ hpos with ⟨c, hc⟩
    simp only [hc]
    have hmade' := hmade.deliver halive hno c hpos hc
    generalize Source.step x.ending x.notOk st.state.gen.state = r at hmade' ⊢
    have hnext : received (.out (.onNext r.1) :: st.log) = received st.log ++ [r.1] :=
      received_cons _ _
    refine ⟨hmade', .sending r.1.isEnd rfl (congrArg _ hstack) halive hloop hunfinished
      (fun hend e he => ?_) (fun hend => ⟨r.1, ?_, hend⟩) hearly⟩
    · rcases List.mem_append.mp (hnext ▸ he) with he | he
      · exact hno e he
      · rw [List.mem_singleton.mp he]
        exact hend
    · exact hnext ▸ List.mem_append_right _ (List.mem_singleton_self _)
  · rw [if_neg hmore]
    rw [Bool.not_eq_true] at hmore
    exact ⟨hmade.idle, .idle hlog rfl hstack halive rfl hunfinished hno hmore hearly⟩

theorem subscribe (h : Inv early st) (hlog : st.log = []) (hstack : st.stack = [])
    (hturn : st.turn = .outside) :
    Inv early (Open.perform subscriptionCheck { st with log := .call .subscribe :: st.log }
      ({ st.state with subscribing := true }, .out .onSubscribe .confirmed)) := by
  have hcalled : Made (Source.step x.ending x.notOk) x.values st.state.gen
      (.call .subscribe :: st.log) :=
    h.made.call (.call .subscribe) rfl rfl rfl rfl rfl rfl (RequestBalance.add_zero _).symm
  have hmade : Made (Source.step x.ending x.notOk) x.values st.state.gen
      (.out .onSubscribe :: .call .subscribe :: st.log) :=
    hcalled.call (.out .onSubscribe) rfl rfl rfl rfl rfl rfl (RequestBalance.add_zero _).symm
  -- nothing was called yet, so the generator is as it was made
  have hstart : st.state = (x.patient early).start := by
    cases h.phase with
    | fresh _ _ _ hstart => exact hstart
    | looping hturn' => cases hturn.symm.trans hturn'
    | idle hlog' => exact absurd hlog hlog'
    | late _ _ hstack' => cases hstack.symm.trans hstack'
    | sending _ _ hstack' => cases hstack.symm.trans hstack'
    | lingering _ hstack' => cases hstack.symm.trans hstack'
    | ended _ _ hended =>
        have hdeleted := h.made.deleted
        rw [hlog, hended] at hdeleted
        cases hdeleted
  have hno : NoEnd (.out .onSubscribe :: .call .subscribe :: st.log) := by
    intro e he
    rw [hlog] at he
    cases he
  refine ⟨hmade, ?_⟩
  -- early, the loop waits for a request; otherwise it runs when OnSubscribe returns
  cases early with
  | true =>
      refine .idle (List.cons_ne_nil _ _) rfl (congrArg _ hstack) ?_ ?_ ?_ hno ?_
        (fun hfalse => by cases hfalse)
      · simp only [Open.perform_out, hstart]
      · simp only [Open.perform_out, hstart, Bool.not_true]
      · simp only [Open.perform_out, hstart]
      · simp only [Open.perform_out, hstart]
        rfl
  | false =>
      refine .late rfl rfl (congrArg _ hstack) ?_ ?_ ?_ rfl hno
      · simp only [Open.perform_out, hstart]
      · simp only [Open.perform_out, hstart, Bool.not_false]
      · simp only [Open.perform_out, hstart]

theorem request (h : Inv early st) (n : Nat) (hlog : st.log ≠ []) (hturn : st.turn = .outside)
    (halive : st.state.gen.hasEnded = false) :
    Inv early (Open.perform subscriptionCheck { st with log := .call (.request n) :: st.log }
      (st.state.request n)) := by
  have hmade : Made (Source.step x.ending x.notOk) x.values
      { st.state.gen with requested := st.state.gen.requested.add n }
      (.call (.request n) :: st.log) :=
    h.made.call (.call (.request n)) rfl rfl rfl rfl rfl rfl rfl
  -- a loop that is running will find the larger balance
  have hbusy : st.state.gen.generating = true →
      Phase early (Open.perform subscriptionCheck { st with log := .call (.request n) :: st.log }
        ({ st.state with gen := { st.state.gen with requested := st.state.gen.requested.add n } },
          .ret)) := by
    intro hloop
    cases h.phase with
    | fresh hnone => exact absurd hnone hlog
    | looping hturn' => cases hturn.symm.trans hturn'
    | ended _ _ hended => exact absurd (halive.symm.trans hended) Bool.false_ne_true
    | idle _ _ _ _ hidle => exact absurd (hidle.symm.trans hloop) Bool.false_ne_true
    | late hearly _ hstack _ _ hunfinished hsubscribing hno =>
        exact .late hearly rfl hstack halive hloop hunfinished hsubscribing (hno.cons _ rfl)
    | sending isEnd _ hstack _ _ hunfinished hmore hlast hearly =>
        exact .sending isEnd rfl hstack halive hloop hunfinished
            (fun hend => (hmore hend).cons _ rfl)
          (fun hend => exists_end_cons (hlast hend) _) hearly
    | lingering _ hstack _ _ hfinished hlast =>
        exact .lingering rfl hstack halive hloop hfinished (exists_end_cons hlast _)
  by_cases hloop : st.state.gen.generating = true
  · rw [PatientGenerator.request, if_pos hloop]
    exact ⟨hmade, hbusy hloop⟩
  · rw [PatientGenerator.request, if_neg hloop]
    rw [Bool.not_eq_true] at hloop
    refine ⟨hmade.congr rfl rfl rfl, ?_⟩
    cases h.phase with
    | fresh hnone => exact absurd hnone hlog
    | looping hturn' => cases hturn.symm.trans hturn'
    | ended _ _ hended => exact absurd (halive.symm.trans hended) Bool.false_ne_true
    | late _ _ _ _ hloop' => exact absurd (hloop.symm.trans hloop') Bool.false_ne_true
    | sending _ _ _ _ hloop' => exact absurd (hloop.symm.trans hloop') Bool.false_ne_true
    | lingering _ _ _ hloop' => exact absurd (hloop.symm.trans hloop') Bool.false_ne_true
    | idle _ _ hstack _ _ hunfinished hno _ hearly =>
        exact .looping rfl hstack halive rfl hunfinished (hno.cons _ rfl) hearly

/-- The subscriber returns from `OnSubscribe`. -/
theorem confirmed (h : Inv early st) (hlog : st.log ≠ []) (hturn : st.turn = .outside)
    (hstack : st.stack = [(.env, .confirmed)]) :
    Inv early (Open.perform subscriptionCheck { st with stack := [] }
      (st.state.confirmed early)) := by
  have hmade : Made (Source.step x.ending x.notOk) x.values st.state.gen st.log := h.made
  cases h.phase with
  | fresh hnone => exact absurd hnone hlog
  | looping hturn' => cases hturn.symm.trans hturn'
  | sending _ _ hstack' => cases hstack.symm.trans hstack'
  | ended _ hstack' =>
      rw [hstack] at hstack'
      rcases hstack' with hnil | hdone
      · cases hnil
      · cases hdone
  | late hearly _ _ halive hloop hunfinished _ hno =>
      subst hearly
      simp only [PatientGenerator.confirmed, hunfinished, Bool.false_eq_true, if_false]
      exact ⟨hmade, .looping rfl rfl halive hloop rfl hno fun _ => rfl⟩
  | idle _ _ hstack' halive hidle hunfinished hno hserved hearly =>
      have htrue : early = true := by
        rw [← Bool.not_eq_false]
        intro hfalse
        rw [hstack, base, hearly hfalse, if_neg Bool.false_ne_true] at hstack'
        cases hstack'
      simp only [PatientGenerator.confirmed, hunfinished, htrue, Bool.false_eq_true,
          if_false, if_true]
      exact ⟨hmade, .idle hlog rfl rfl halive hidle rfl hno hserved fun _ => rfl⟩
  -- the end was delivered inside OnSubscribe, so the stream goes only now
  | lingering _ _ halive _ hfinished hlast =>
      simp only [PatientGenerator.confirmed, hfinished, if_true]
      exact ⟨hmade.delete halive hlast, .ended rfl (Or.inr rfl) rfl⟩

/-- It returns from an event. -/
theorem sent (h : Inv early st) (isEnd : Bool) (hlog : st.log ≠ []) (hturn : st.turn = .outside)
    (rest : List (Callee × Point)) (hstack : st.stack = (.env, .sent isEnd) :: rest) :
    Inv early (Open.perform subscriptionCheck { st with stack := rest } (st.state.sent isEnd)) := by
  cases h.phase with
  | fresh hnone => exact absurd hnone hlog
  | looping hturn' => cases hturn.symm.trans hturn'
  | late _ _ hstack' => cases hstack.symm.trans hstack'
  | lingering _ hstack' => cases hstack.symm.trans hstack'
  | ended _ hstack' =>
      rw [hstack] at hstack'
      rcases hstack' with hnil | hdone
      · cases hnil
      · cases hdone
  | idle _ _ hstack' =>
      rw [hstack, base] at hstack'
      split at hstack' <;> cases hstack'
  | sending isEnd' _ hstack' halive hloop hunfinished hmore hlast hearly =>
      rw [hstack] at hstack'
      cases hstack'
      cases isEnd with
      | false =>
          exact ⟨h.made, .looping rfl rfl halive hloop hunfinished (hmore rfl) hearly⟩
      | true =>
          -- inside OnSubscribe the stream must outlive its end
          by_cases hsubscribing : st.state.subscribing = true
          · simp only [PatientGenerator.sent, hsubscribing, if_true]
            refine ⟨h.made, .lingering rfl ?_ halive hloop rfl (hlast rfl)⟩
            simp only [Open.perform_ret, base, hsubscribing, if_true]
          · rw [Bool.not_eq_true] at hsubscribing
            simp only [PatientGenerator.sent, hsubscribing, if_true, Bool.false_eq_true, if_false]
            refine ⟨h.made.delete halive (hlast rfl), .ended rfl (Or.inr ?_) rfl⟩
            simp only [PatientGenerator.destroy, Open.perform_out, base, hsubscribing,
              Bool.false_eq_true, if_false]

end Inv

theorem inv_reach (st : Open (x.patient early))
    (h : Open.Reach subscriptionCheck (LogRules Patient) st) : Inv early st := by
  refine Open.Reach.induct (Inv early) ?_ ?_ st h
  · exact ⟨Made.start.congr rfl rfl rfl, .fresh rfl rfl rfl rfl⟩
  · intro st st' hreach ih hstep
    -- only before the first call is nothing waited for
    have hne : st.stack ≠ [] ∨ st.turn ≠ .outside → st.log ≠ [] := by
      intro hbusy hlog
      rcases hreach.idle st hlog with ⟨hstack, hturn⟩
      rcases hbusy with hne | hne
      · exact hne hstack
      · exact hne hturn
    cases hstep with
    | said p i o turn kind ok => cases i
    | view p v turn ok => exact ok.elim
    | run k turn ok =>
        have hlog := hne (Or.inr (by rw [turn]; simp only [ne_eq, reduceCtorEq, not_false_eq_true]))
        cases ih.phase with
        | looping hturn hstack halive hloop hunfinished hno hearly =>
            cases turn.symm.trans hturn
            exact Inv.generate st ih.made hlog hstack halive hloop hunfinished hno hearly
        | fresh _ hturn => cases turn.symm.trans hturn
        | late _ hturn => cases turn.symm.trans hturn
        | idle _ hturn => cases turn.symm.trans hturn
        | sending _ hturn => cases turn.symm.trans hturn
        | lingering hturn => cases turn.symm.trans hturn
        | ended hturn => cases turn.symm.trans hturn
    | call c turn open_ ok =>
        cases c with
        | cancel => exact absurd rfl ok.2
        | subscribe =>
            have hlog : st.log = [] := List.isEmpty_iff.mp ok.1
            exact ih.subscribe hlog (hreach.idle st hlog).1 turn
        | request n =>
            refine ih.request n (fun hnil => ?_) turn (GeneratingStream.running_of_check _
                (.request n)
              open_ (by simp only [ne_eq, reduceCtorEq, not_false_eq_true]))
            have hsub : subscribed st.log = true := ok.1.1
            rw [hnil] at hsub
            cases hsub
    | reply who k rest turn top ok =>
        have hlog : st.log ≠ [] := by
          refine hne (Or.inl ?_)
          rw [top]
          exact List.cons_ne_nil _ _
        rcases ih.phase.top hlog turn top with
          ⟨rfl, ⟨rfl, rfl⟩ | ⟨isEnd, rfl⟩ | ⟨rfl, rfl, hended⟩⟩
        · exact ih.confirmed hlog turn top
        · exact ih.sent isEnd hlog turn rest top
        · exact ⟨ih.made, .ended rfl (Or.inl rfl) hended⟩

end PatientGenerator

namespace Listing

variable {x : Listing T} {early : Bool}

section Runs

variable {s : PatientGenerator T} {c : RequestBalance}

/-- The loop makes a value. -/
theorem patient_value {v : T} {vs : List T} (hstate : s.gen.state = v :: vs)
    (hmore : s.gen.requested.hasRequests = true) (hc : s.gen.requested.remove 1 = some c) :
    Runs (x.patient early) (s, .goto .generate)
      ({ s with gen := { s.gen with requested := c, state := vs } },
        .out (.onNext (.value v)) (.sent false)) := by
  refine .go _ _ _ ?_
  change Runs (x.patient early) (s.generate x) _
  rw [PatientGenerator.generate, if_pos hmore, hc, hstate]
  exact Runs.stop (A := x.patient early) _ rfl

/-- It makes the status. -/
theorem patient_status (hstate : s.gen.state = [])
    (hmore : s.gen.requested.hasRequests = true) (hc : s.gen.requested.remove 1 = some c) :
    Runs (x.patient early) (s, .goto .generate)
      ({ s with gen := { s.gen with requested := c } },
        .out (.onNext (.status x.ending x.notOk)) (.sent true)) := by
  refine .go _ _ _ ?_
  change Runs (x.patient early) (s.generate x) _
  have hcode : s.generate x = ({ s with gen := { s.gen with requested := c } },
      .out (.onNext (.status x.ending x.notOk)) (.sent true)) := by
    rw [PatientGenerator.generate, if_pos hmore]
    simp only [hc, hstate, Source.step, StatusOr.isEnd_status]
  rw [hcode]
  exact Runs.stop (A := x.patient early) _ rfl

/-- Nothing more is asked for. -/
theorem patient_none (hno : s.gen.requested.hasRequests = false) :
    Runs (x.patient early) (s, .goto .generate)
      ({ s with gen := { s.gen with generating := false } }, .ret) := by
  refine .go _ _ _ ?_
  change Runs (x.patient early) (s.generate x) _
  rw [PatientGenerator.generate, hno, if_neg Bool.false_ne_true]
  exact Runs.stop (A := x.patient early) _ rfl

/-- A request while the loop is running. -/
theorem patient_busy (n : Nat) (hbusy : s.gen.generating = true) :
    Runs (x.patient early) (s.request n)
      ({ s with gen := { s.gen with requested := s.gen.requested.add n } }, .ret) := by
  rw [PatientGenerator.request, if_pos hbusy]
  exact Runs.stop (A := x.patient early) _ rfl

/-- A request that starts the loop. -/
theorem patient_request {n : Nat} {v : Machine.Outcome (x.patient early)}
    (hidle : s.gen.generating = false)
    (h : Runs (x.patient early)
      ({ s with gen := { s.gen with requested := s.gen.requested.add n, generating := true } },
        .goto .generate) v) : Runs (x.patient early) (s.request n) v := by
  rw [PatientGenerator.request, if_neg (Bool.eq_false_iff.mp hidle)]
  exact h

/-- The subscriber returns from the end. -/
theorem patient_last (hsubscribing : s.subscribing = false) :
    Runs (x.patient early) ((x.patient early).resume noViews s (.sent true))
      ({ s with finished := true, gen := { s.gen with hasEnded := true } },
        .out .destroy .done) := by
  change Runs (x.patient early) (s.sent true) _
  simp only [PatientGenerator.sent, hsubscribing, if_true, Bool.false_eq_true, if_false]
  exact Runs.stop (A := x.patient early) _ rfl

/-- It does so in `OnSubscribe`. -/
theorem patient_linger (hsubscribing : s.subscribing = true) :
    Runs (x.patient early) ((x.patient early).resume noViews s (.sent true))
      ({ s with finished := true }, .ret) := by
  change Runs (x.patient early) (s.sent true) _
  simp only [PatientGenerator.sent, hsubscribing, if_true]
  exact Runs.stop (A := x.patient early) _ rfl

/-- How many values are left, in units of the calls of one round. -/
def patientSize (s : PatientGenerator T) : Nat :=
  3 * s.gen.state.length

/-- The calls that are left when one of the subscriber returns. -/
def patientReturn : PatientGenerator.Point → Nat
  | .done => 1
  | .confirmed => 4
  | .generate => 3
  | .sent isEnd => if isEnd then 2 else 3

/-- A round of the loop leaves less to do. -/
theorem patient_less_of_generate {v : Machine.Outcome (x.patient early)}
    (hruns : Runs (x.patient early) (s, .goto .generate) v) :
    Less (A := x.patient early) patientSize patientReturn (patientSize s + 3) v := by
  by_cases hmore : s.gen.requested.hasRequests = true
  · rcases RequestBalance.remove_isSome _ ((RequestBalance.hasRequests_iff _).mp hmore) with ⟨c, hc⟩
    cases hstate : s.gen.state with
    | nil =>
        rw [hruns.unique (patient_status hstate hmore hc)]
        refine .out _ _ _ ?_
        simp only [patientSize, patientReturn, if_true]
        omega
    | cons v vs =>
        rw [hruns.unique (patient_value hstate hmore hc)]
        refine .out _ _ _ ?_
        simp only [patientSize, hstate, patientReturn, Bool.false_eq_true, if_false,
          List.length_cons]
        omega
  · rw [Bool.not_eq_true] at hmore
    rw [hruns.unique (patient_none hmore)]
    exact .ret _ (Nat.lt_add_of_pos_right (by omega))

/-- Every call that returns leaves less to do. -/
theorem patient_less_of_resume (s : PatientGenerator T) (l : PatientGenerator.Point)
    (v : Machine.Outcome (x.patient early))
    (hruns : Runs (x.patient early) ((x.patient early).resume noViews s l) v) :
    Less (A := x.patient early) patientSize patientReturn (patientSize s + patientReturn l) v := by
  cases l with
  | done =>
      rw [hruns.eq_of_stop rfl]
      exact .ret _ (Nat.lt_succ_self _)
  | generate =>
      exact patient_less_of_generate
        (Runs.go (A := x.patient early) s PatientGenerator.Point.generate v hruns)
  | confirmed =>
      change Runs (x.patient early) (s.confirmed early) v at hruns
      rw [PatientGenerator.confirmed] at hruns
      by_cases hfinished : s.finished = true
      · simp only [hfinished, if_true] at hruns
        rw [hruns.eq_of_stop rfl]
        refine .out _ _ _ ?_
        simp only [patientSize, patientReturn]
        omega
      · simp only [hfinished, Bool.false_eq_true, if_false] at hruns
        cases early with
        | true =>
            rw [hruns.eq_of_stop rfl]
            exact .ret _ (Nat.lt_add_of_pos_right (by decide))
        | false =>
            cases patient_less_of_generate hruns with
            | ret s' h => exact .ret s' (Nat.lt_succ_of_lt h)
            | out s' o k h => exact .out s' o k (Nat.lt_succ_of_lt h)
  | sent isEnd =>
      cases isEnd with
      | false => exact patient_less_of_generate hruns
      | true =>
          by_cases hsubscribing : s.subscribing = true
          · rw [hruns.unique (patient_linger hsubscribing)]
            exact .ret _ (Nat.lt_add_of_pos_right (by decide))
          · rw [Bool.not_eq_true] at hsubscribing
            rw [hruns.unique (patient_last hsubscribing)]
            exact .out _ _ _ (Nat.lt_succ_self _)

end Runs

/-- The generator delivers its listing. -/
theorem patient_delivers {st : Open (x.patient early)}
    (h : Open.Reach subscriptionCheck (LogRules Patient) st) (hturn : st.turn = .outside) :
    x.Delivers st := by
  rcases PatientGenerator.inv_reach st h with ⟨hmade, hphase⟩
  have hexact : received st.log = x.events.take (received st.log).length := by
    rw [← events_eq]
    exact hmade.events
  -- at rest the demand is met, or the end has come
  have hrest : st.stack = [] → NoEnd st.log →
      (outstanding st.log).balance = 0 ∨ st.state.gen.hasEnded = true := by
    intro hstack hno
    cases hphase with
    | fresh hlog => exact Or.inl (by rw [hlog]; rfl)
    | late _ _ hstack' => cases hstack.symm.trans hstack'
    | sending _ _ hstack' => cases hstack.symm.trans hstack'
    | lingering _ hstack' => cases hstack.symm.trans hstack'
    | looping hturn' => cases hturn.symm.trans hturn'
    | ended _ _ hended => exact Or.inr hended
    | idle _ _ _ halive _ _ _ hserved _ =>
        left
        rw [← hmade.balance halive hno]
        rw [Bool.eq_false_iff, ne_eq, RequestBalance.hasRequests_iff] at hserved
        exact Nat.eq_zero_of_not_pos hserved
  have hall : (∃ e ∈ received st.log, e.isEnd = true) → received st.log = x.events :=
    received_all hexact
  have hend : cancelCalled st.log = false → st.state.gen.hasEnded = true →
      received st.log = x.events := by
    intro hcancel hended
    rcases hmade.cause hended with hcancelled | hend
    · exact absurd (hcancel.symm.trans hcancelled) Bool.false_ne_true
    · exact hall hend
  have hcases : (∃ e ∈ received st.log, e.isEnd = true) ∨ NoEnd st.log := by
    by_cases hsome : ∃ e ∈ received st.log, e.isEnd = true
    · exact Or.inl hsome
    · right
      intro e he
      rw [← Bool.not_eq_true]
      exact fun hend => hsome ⟨e, he, hend⟩
  refine ⟨hexact, hmade.demanded, ?_, ?_, hmade.cut, hmade.deleted, hmade.cause, ?_⟩
  · intro hcancel hstack hmax
    have hle : (received st.log).length ≤ demand st.log := hmade.demanded.resolve_left hmax
    rcases hcases with hsome | hno
    · have hevents := hall hsome
      rw [hevents] at hle
      rw [hevents, List.take_of_length_le hle]
    · rcases hrest hstack hno with hzero | hended
      · have haccount := hmade.account.resolve_left hmax
        rw [hzero, Nat.zero_add, values_eq_length _ hno] at haccount
        rw [hexact, haccount]
      · rw [hend hcancel hended] at hle ⊢
        rw [List.take_of_length_le hle]
  · intro hcancel hstack hmax
    rcases hcases with hsome | hno
    · exact hall hsome
    · rcases hrest hstack hno with hzero | hended
      · rw [hzero] at hmax
        cases hmax
      · exact hend hcancel hended
  · rintro hstack ⟨e, he, hend⟩
    cases hphase with
    | ended _ _ hended => exact hended
    | looping hturn' => cases hturn.symm.trans hturn'
    | late _ _ hstack' => cases hstack.symm.trans hstack'
    | sending _ _ hstack' => cases hstack.symm.trans hstack'
    | lingering _ hstack' => cases hstack.symm.trans hstack'
    | idle _ _ _ _ _ _ hno => exact absurd ((hno e he).symm.trans hend) Bool.false_ne_true
    | fresh hlog =>
        rw [hlog] at he
        cases he

/-- What stands for it delivers the listing, and does not give up. -/
theorem behaves_of_patient {A : Operator T Empty NoParts}
    (S : Simulation subscriptionCheck (patientProtocol T) A (x.patient early)) (st : Open A)
    (h : Open.Reach subscriptionCheck (LogRules Patient) st) : x.Behaves False st :=
  behaves_of S allow_of_patient (fun _ hgave => hgave.elim)
    (fun _ hreached hturn => patient_delivers hreached hturn) patientSize patientReturn
    patient_less_of_resume st h

end Listing

end RxCppUniq
