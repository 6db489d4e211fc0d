import RxCppUniq.Reactive.Single
import RxCppUniq.Theory.Modes

/-!
# What a Listener Hears

A single requests one event. A stream may send its last event without a
request, and it may still send it after it was cancelled, because a
cancellation takes effect later. So the lambda of a single may be called
twice, with a value and with an end. It keeps the end marker from the listener
then, but not an error.

The rules are those of the subscriber's contract: as many values as were
requested, and one end, which is last and may come at any time.

## Main definitions

* `SingleSubscriber.NoticeRules`: What the stream may do.
* `SingleSubscriber.announced`: What the listener hears of the events.
* `SingleSubscriber.notices`: The modes of a single.
* `SingleSubscriber.Notified`: The listener is called once.

## Theorems

* `SingleSubscriber.notices_reach`: The invariant holds of every reachable
  state.
* `SingleSubscriber.notified_iff`: The listener is called once exactly when no
  error follows a value.
* `SingleSubscriber.twice`: A run in which it is called twice.
-/

namespace RxCppUniq

open Theory

namespace SingleSubscriber

variable {T : Type}

/-- The contract of a stream with its subscriber. Values are sent only on
    request, the end is not; nothing follows it. -/
def Contract (p : Nat) (log : Log T Unit (fun _ => T)) : Signal T → Prop
  | .onSubscribe => confirmed p log = false ∧ released p log = false
  | .onNext e => confirmed p log = true ∧ released p log = false ∧
      ended (arrived p log) = false ∧ (e.isEnd = false → values (heard p log) < tokens p log)
  | .destroy => released p log = false

/-- The rules for the partners of a single: it is subscribed once, and the
    stream keeps the contract. What may be read of the stream may change at
    any time. -/
def NoticeRules (st : Open (component T)) : Move Call Bool Unit (fun _ => Signal T) → Prop
  | .call c => c = .subscribe ∧ st.log.isEmpty = true
  | .said p _ s => Contract p st.log s
  | .reply => True
  | .view _ _ => True
  | .run => True

instance (p : Nat) (log : Log T Unit (fun _ => T)) (s : Signal T) :
    Decidable (Contract p log s) :=
  match s with
  | .onSubscribe => inferInstanceAs (Decidable (_ ∧ _))
  | .onNext _ => inferInstanceAs (Decidable (_ ∧ _ ∧ _ ∧ (_ → _)))
  | .destroy => inferInstanceAs (Decidable (_ = _))

instance (st : Open (component T)) (m : Move Call Bool Unit (fun _ => Signal T)) :
    Decidable (NoticeRules st m) :=
  match m with
  | .call _ => inferInstanceAs (Decidable (_ ∧ _))
  | .said _ _ _ => inferInstanceAs (Decidable (Contract _ _ _))
  | .reply => inferInstanceAs (Decidable True)
  | .view _ _ => inferInstanceAs (Decidable True)
  | .run => inferInstanceAs (Decidable True)

/-- The result of a single whose first event is `e`. -/
def reported (e : StatusOr T) : StatusOr T :=
  if e.isDone then .status unexpectedEnd unexpectedEnd_notOk else e

/-- What the listener hears: the result, and everything after the first event
    but the end marker. -/
def announced (events : List (StatusOr T)) : List (StatusOr T) :=
  (events.take 1).map reported ++ (events.drop 1).filter (!·.isDone)

@[simp] theorem announced_nil : announced ([] : List (StatusOr T)) = [] := rfl

theorem announced_append (events : List (StatusOr T)) (e : StatusOr T) (h : events ≠ []) :
    announced (events ++ [e]) = announced events ++ [e].filter (!·.isDone) := by
  cases events with
  | nil => exact absurd rfl h
  | cons x events =>
      rw [announced, announced, List.cons_append, List.take_succ_cons, List.drop_succ_cons,
        List.take_succ_cons, List.drop_succ_cons, List.take_zero, List.take_zero, List.drop_zero,
        List.drop_zero, List.filter_append, List.append_assoc]

/-- The invariant. -/
structure Telling (s : SingleSubscriber) (kinds : List Unit) (log : Log T Unit (fun _ => T)) :
    Prop where
  hears : received log = announced (heard 0 log)
  orderly : ∀ e ∈ (heard 0 log).dropLast, e.isEnd = false
  atMost : values (heard 0 log) ≤ 1
  once : cancels 0 log ≤ 1
  single : kinds.length ≤ 1
  fresh : log = [] → kinds = []
  called : s.called = true ↔ heard 0 log ≠ []
  requested : tokens 0 log ≤ 1
  unasked : confirmed 0 log = false → tokens 0 log = 0

/-- No value has come, one is being passed to the listener, or it has been. -/
inductive Mode where
  | waiting
  | listening
  | past

/-- What each mode says of the values and of the cancellations. -/
def Stage (log : Log T Unit (fun _ => T)) : Mode → Prop
  | .waiting => values (heard 0 log) = 0 ∧ cancels 0 log = 0
  | .listening => values (heard 0 log) = 1 ∧ cancels 0 log = 0
  | .past => values (heard 0 log) = 1

/-- The modes. The point after the listener was called with a value is tracked:
    it is where the rest is cancelled. -/
def notices (T : Type) : Open.Modes (component T) where
  Mode := Mode
  tracked
    | .done => false
    | .listened _ isEnd => !isEnd
  turn _ := .outside
  frames
    | .waiting => []
    | .listening => [.listened 0 false]
    | .past => []
  Facts m s kinds log := Telling s kinds log ∧ Stage log m
  Safe _ _ := True

section Owes

variable {s t : SingleSubscriber} {kinds : List Unit} {log : Log T Unit (fun _ => T)} {m : Mode}

/-- Code that stops outside the single, in some mode. -/
theorem notices_owes {frames : List Point} {r : Result T} (m' : Mode)
    (hturn : r.2.turn = .outside)
    (hframes : (notices T).frames m' = r.2.push (notices T).tracked frames)
    (htelling : Telling r.1 (r.2.kinds kinds) (r.2.log kinds log))
    (hstage : Stage (r.2.log kinds log) m') :
    (notices T).Owes frames kinds log r :=
  ⟨trivial, Or.inr ⟨m', hturn.symm, hframes, htelling, hstage⟩⟩

/-- An entry of which neither the listener nor the stream hears. -/
theorem Telling.note (h : Telling s kinds log) (n : Entry T Unit (fun _ => T))
    (hreceived : n.received = none) (hheard : n.heard 0 = none)
    (htokens : tokens 0 log + n.tokens 0 ≤ 1)
    (hcancels : cancels 0 log + n.cancels 0 ≤ 1)
    (hunasked : confirmed 0 (n :: log) = false → tokens 0 (n :: log) = 0) :
    Telling s kinds (n :: log) := by
  have hhear : heard 0 (n :: log) = heard 0 log := by
    rw [heard_cons, hheard, Option.toList_none, List.append_nil]
  have hrec : received (n :: log) = received log := by
    rw [received_cons, hreceived, Option.toList_none, List.append_nil]
  refine
    { hears := ?_
      orderly := ?_
      atMost := ?_
      once := hcancels
      single := h.single
      fresh := fun hnil => (by cases hnil)
      called := ?_
      requested := htokens
      unasked := hunasked }
  · rw [hrec, hhear]
    exact h.hears
  · rw [hhear]
    exact h.orderly
  · rw [hhear]
    exact h.atMost
  · rw [hhear]
    exact h.called

theorem Stage.note (h : Stage log m) (n : Entry T Unit (fun _ => T)) (hheard : n.heard 0 = none)
    (hcancels : n.cancels 0 = 0) : Stage (n :: log) m := by
  have hhear : heard 0 (n :: log) = heard 0 log := by
    rw [heard_cons, hheard, Option.toList_none, List.append_nil]
  cases m with
  | waiting => exact ⟨hhear ▸ h.1, by rw [cancels_cons, hcancels]; exact h.2⟩
  | listening => exact ⟨hhear ▸ h.1, by rw [cancels_cons, hcancels]; exact h.2⟩
  | past => exact (congrArg values hhear).trans h

/-- An event arrives that the contract allows, and the listener hears what is
    in `out`. -/
theorem Telling.event (h : Telling s kinds log) (e : StatusOr T)
    (hok : Contract 0 log (.onNext e)) (out : List (StatusOr T))
    (hout : announced (heard 0 log ++ [e]) = announced (heard 0 log) ++ out)
    (log' : Log T Unit (fun _ => T))
    (hreceived : received log' = received log ++ out)
    (hheard : heard 0 log' = heard 0 log ++ [e]) (htokens : tokens 0 log' = tokens 0 log)
    (hcancels : cancels 0 log' = cancels 0 log)
    (hconfirmed : confirmed 0 log' = confirmed 0 log) (hne : log' ≠ [])
    (hcalled : t.called = true) : Telling t kinds log' := by
  -- the event was still expected, so no end came before
  have hopen : ∀ x ∈ heard 0 log, x.isEnd = false := by
    intro x hx
    have hend := (ended_eq_false _).mp hok.2.2.1
    rw [arrived_eq_heard] at hend
    rw [StatusOr.isEnd, hend _ (List.mem_map_of_mem hx)]
    rfl
  refine
    { hears := ?_
      orderly := ?_
      atMost := ?_
      once := hcancels ▸ h.once
      single := h.single
      fresh := fun hnil => absurd hnil hne
      called := ⟨fun _ => ?_, fun _ => hcalled⟩
      requested := htokens ▸ h.requested
      unasked := fun hno => htokens ▸ h.unasked (hconfirmed ▸ hno) }
  · rw [hreceived, hheard, hout, h.hears]
  · rw [hheard, List.dropLast_concat]
    exact hopen
  · rw [hheard, values_append, values_singleton]
    have hatMost := h.atMost
    have hrequested := h.requested
    cases hend : e.isEnd with
    | true => exact hatMost
    | false =>
        have hlt := hok.2.2.2 hend
        simp only [Bool.false_eq_true, if_false]
        omega
  · rw [hheard]
    exact List.append_ne_nil_of_right_ne_nil _ (List.cons_ne_nil _ _)

/-- What the listener hears of one more event that is not the end marker. -/
theorem announced_other (events : List (StatusOr T)) (e : StatusOr T) (h : e.isDone = false) :
    announced (events ++ [e]) = announced events ++ [e] := by
  by_cases hnil : events = []
  · rw [hnil, List.nil_append, announced, List.take_succ_cons, List.take_zero, List.drop_succ_cons,
      List.drop_zero, List.map_cons, List.map_nil, reported, h, if_neg Bool.false_ne_true]
    rfl
  · rw [announced_append events e hnil, List.filter_cons, h, Bool.not_false, if_pos rfl,
      List.filter_nil]

/-- A single passes an event on, in whatever mode it is. -/
theorem notices_onNext (h : Telling s kinds log) (hstage : Stage log m) (e : StatusOr T)
    (hok : Contract 0 log (.onNext e)) :
    (notices T).Owes ((notices T).frames m) kinds (.said 0 () (.onNext e) :: log)
      (s.onNext 0 e) := by
  have hheard : heard 0 (.said 0 () (.onNext e) :: log) = heard 0 log ++ [e] := by
    rw [heard_cons, Entry.heard, if_pos rfl]
    rfl
  have hsilent : received (.said 0 () (.onNext e) :: log) = received log := by
    rw [received_cons, Entry.received, Option.toList_none, List.append_nil]
  -- an end is no value, so the mode stays what it is
  have hend (n : List (Entry T Unit (fun _ => T))) (hisEnd : e.isEnd = true)
      (hlog : heard 0 (n ++ .said 0 () (.onNext e) :: log) = heard 0 log ++ [e])
      (hcancels : cancels 0 (n ++ .said 0 () (.onNext e) :: log) =
        cancels 0 log) :
      Stage (n ++ .said 0 () (.onNext e) :: log) m := by
    have hvalues :
        values (heard 0 (n ++ .said 0 () (.onNext e) :: log)) = values (heard 0 log) := by
      rw [hlog, values_append, values_singleton, hisEnd, if_pos rfl, Nat.add_zero]
    cases m with
    | waiting => exact ⟨hvalues.trans hstage.1, hcancels.trans hstage.2⟩
    | listening => exact ⟨hvalues.trans hstage.1, hcancels.trans hstage.2⟩
    | past => exact hvalues.trans hstage
  unfold onNext
  by_cases hdone : e.isDone = true
  · rw [if_pos hdone]
    have hisEnd : e.isEnd = true := by
      cases e with
      | value v => cases hdone
      | status s hs => exact StatusOr.isEnd_status s hs
    by_cases hcalled : s.called = true
    · -- the end marker after a value is kept from the listener
      rw [if_neg (by rw [hcalled]; exact Bool.false_ne_true)]
      refine notices_owes m rfl rfl ?_ (hend [] hisEnd hheard rfl)
      refine h.event e hok [] ?_ _ ?_ hheard rfl rfl rfl (List.cons_ne_nil _ _) hcalled
      · rw [announced_append _ e (h.called.mp hcalled), List.filter_cons, hdone, Bool.not_true,
          if_neg Bool.false_ne_true, List.filter_nil]
      · rw [List.append_nil]
        exact hsilent
    · have hnil : heard 0 log = [] := by
        by_contra hne
        exact hcalled (h.called.mpr hne)
      rw [Bool.not_eq_true] at hcalled
      rw [hcalled, Bool.not_false, if_pos rfl]
      refine notices_owes m rfl rfl ?_
        (hend [.out (.onNext (.status unexpectedEnd unexpectedEnd_notOk))] hisEnd hheard rfl)
      refine h.event e hok [.status unexpectedEnd unexpectedEnd_notOk] ?_ _ ?_ hheard rfl rfl rfl
        (List.cons_ne_nil _ _) rfl
      · rw [hnil, List.nil_append, announced_nil, List.nil_append, announced, List.take_succ_cons,
          List.take_zero, List.drop_succ_cons, List.drop_zero, List.map_cons, List.map_nil,
          reported, if_pos hdone]
        rfl
      · rw [Act.log, received_cons, hsilent]
        rfl
  · rw [if_neg hdone]
    rw [Bool.not_eq_true] at hdone
    have hevent : Telling { s with called := true } kinds
        (.out (.onNext e) :: .said 0 () (.onNext e) :: log) := by
      refine h.event e hok [e] (announced_other _ e hdone) _ ?_ hheard rfl rfl rfl
        (List.cons_ne_nil _ _) rfl
      rw [received_cons, hsilent]
      rfl
    cases hisEnd : e.isEnd with
    | true =>
        refine notices_owes m rfl ?_ hevent (hend [.out (.onNext e)] hisEnd hheard rfl)
        rfl
    | false =>
        have hlt := hok.2.2.2 hisEnd
        have hrequested := h.requested
        have hzero : values (heard 0 log) = 0 := by omega
        have hone : values (heard 0 (.out (.onNext e) :: .said 0 () (.onNext e) :: log)) = 1 := by
          rw [show heard 0 (.out (.onNext e) :: .said 0 () (.onNext e) :: log) =
            heard 0 log ++ [e] from hheard, values_append, values_singleton, hisEnd, hzero]
          rfl
        -- a value comes only where none has come before
        cases m with
        | waiting => exact notices_owes .listening rfl rfl hevent ⟨hone, hstage.2⟩
        | listening =>
            have hno := hstage.1
            omega
        | past =>
            have hno : values (heard 0 log) = 1 := hstage
            omega

end Owes

theorem telling_init : Telling {} [] ([] : Log T Unit (fun _ => T)) where
  hears := rfl
  orderly _ he := by cases he
  atMost := Nat.zero_le 1
  once := Nat.zero_le 1
  single := Nat.zero_le 1
  fresh _ := rfl
  called := ⟨fun h => (by cases h), fun h => absurd rfl h⟩
  requested := Nat.zero_le 1
  unasked _ := rfl

/-- The stream is the only part. -/
theorem Telling.only {s : SingleSubscriber} {kinds : List Unit} {log : Log T Unit (fun _ => T)}
    (h : Telling s kinds log) (p : Nat) (i : Unit) (hkind : kinds[p]? = some i) : p = 0 := by
  have hlt := (List.getElem?_eq_some_iff.mp hkind).1
  have hsingle := h.single
  omega

theorem notices_said (st : Open (component T)) (m : Mode) (p : Nat) (i : Unit) (o : Signal T)
    (hfits : (notices T).Fits m st) (hok : NoticeRules st (.said p i o))
    (hkind : st.kinds[p]? = some i) :
    (notices T).Owes ((notices T).frames m) st.kinds (.said p i o :: st.log)
      ((component T).said st.views st.state p i o) := by
  rcases hfits.facts with ⟨htelling, hstage⟩
  have hp := htelling.only p i hkind
  subst hp
  cases o with
  | onSubscribe =>
      have hzero := htelling.unasked hok.1
      have hsaid : Telling st.state st.kinds (.said 0 i .onSubscribe :: st.log) := by
        refine htelling.note _ rfl rfl htelling.requested htelling.once fun hno => ?_
        rw [confirmed_cons, Entry.confirms, beq_self_eq_true, Bool.true_or] at hno
        cases hno
      have htokens : tokens 0 (.said 0 i .onSubscribe :: st.log) = 0 := hzero
      refine notices_owes m rfl rfl (hsaid.note (.ask 0 (.request 1)) rfl rfl ?_ hsaid.once
        fun hno => ?_) ((hstage.note (.said 0 i .onSubscribe) rfl rfl).note _ rfl rfl)
      · rw [htokens]
        exact Nat.le_refl 1
      · rw [confirmed_cons, confirmed_cons, Entry.confirms, Entry.confirms, beq_self_eq_true,
          Bool.true_or, Bool.or_true] at hno
        cases hno
  | onNext e => exact notices_onNext htelling hstage e hok
  | destroy =>
      exact notices_owes m rfl rfl
        (htelling.note _ rfl rfl htelling.requested htelling.once htelling.unasked)
        (hstage.note _ rfl rfl)

/-- After a value the rest is cancelled, once. -/
theorem notices_listened (st : Open (component T)) (p : Nat) (rest : List Point)
    (hfits : (notices T).Fits .listening st) (hrest : rest = []) :
    (notices T).Owes rest st.kinds st.log (st.state.listened st.views p false) := by
  rcases hfits.facts with ⟨htelling, hone, hzero⟩
  have hzero' : cancels 0 st.log = 0 := hzero
  unfold listened
  by_cases hview : st.views p = true
  · rw [hview]
    exact notices_owes .past rfl hrest.symm htelling hone
  · rw [Bool.not_eq_true] at hview
    rw [hview]
    have hcancels : Entry.cancels 0 (.ask p .cancel : Entry T Unit (fun _ => T)) ≤ 1 := by
      rw [Entry.cancels]
      split
      · exact Nat.le_refl 1
      · exact Nat.zero_le 1
    have htokens : Entry.tokens 0 (.ask p .cancel : Entry T Unit (fun _ => T)) = 0 := ite_self _
    refine notices_owes .past rfl hrest.symm (htelling.note (.ask p .cancel) rfl rfl ?_ ?_
      fun hno => ?_) hone
    · rw [htokens]
      exact htelling.requested
    · rw [hzero', Nat.zero_add]
      exact hcancels
    · rw [tokens_cons, htokens]
      exact htelling.unasked hno

theorem notices_reach (st : Open (component T))
    (h : Open.Reach subscriptionCheck NoticeRules st) : (notices T).Holds st := by
  refine (notices T).holds_reach subscriptionCheck NoticeRules
    ⟨.waiting, rfl, rfl, telling_init, rfl, rfl⟩ ?_ ?_ ?_ ?_ ?_ st h
  · intro st m c hfits _ hok
    rcases hok with ⟨rfl, hempty⟩
    rcases hfits.facts with ⟨htelling, hstage⟩
    have hcalled : Telling st.state st.kinds (.call .subscribe :: st.log) :=
      htelling.note _ rfl rfl htelling.requested htelling.once htelling.unasked
    have hmade : Telling st.state st.kinds
        (.ask st.kinds.length .subscribe :: .call .subscribe :: st.log) := by
      have htokens : Entry.tokens 0
          (.ask st.kinds.length .subscribe : Entry T Unit (fun _ => T)) = 0 := ite_self _
      refine hcalled.note _ rfl rfl ?_ hcalled.once fun hno => ?_
      · rw [htokens]
        exact hcalled.requested
      · rw [tokens_cons, htokens]
        exact hcalled.unasked hno
    refine notices_owes m rfl rfl { hmade with single := ?_, fresh := fun hnil => (by cases hnil) }
      ((hstage.note (.call .subscribe) rfl rfl).note (.ask st.kinds.length .subscribe) rfl rfl)
    have hnil := htelling.fresh (List.isEmpty_iff.mp hempty)
    simp only [Act.kinds, hnil]
    exact Nat.le_refl 1
  · intro st m p i o hfits _ hok hkind
    exact notices_said st m p i o hfits hok hkind
  · intro st m k hfits _ _ _ htracked
    rcases hfits.facts with ⟨htelling, hstage⟩
    cases k with
    | done => exact notices_owes m rfl rfl htelling hstage
    -- a call that is not waited for returns from the end
    | listened p isEnd =>
        have hisEnd : isEnd = true := by
          rw [← Bool.not_eq_false']
          exact htracked
        rw [hisEnd]
        exact notices_owes m rfl rfl htelling hstage
  · intro st m who k rest frames hfits _ _ _ htracked hframes
    cases k with
    | done => cases htracked
    | listened p isEnd =>
        have hisEnd : isEnd = false := by
          rw [← Bool.not_eq_true']
          exact htracked
        subst hisEnd
        cases m with
        | waiting => cases hframes
        | listening => exact notices_listened st p frames hfits (List.cons.inj hframes).2.symm
        | past => cases hframes
  · intro st m k hfits hturn _
    exact absurd (hfits.turn.symm.trans hturn) (fun hno => (by cases hno))

/-- The listener is called exactly once, with the first event, if there is
    one, and the stream is cancelled at most once, after a value and when it
    has not ended. -/
structure Notified (st : Open (component T)) : Prop where
  once : received st.log = ((heard 0 st.log).take 1).map reported
  cancelled : cancels 0 st.log ≤ 1
  guarded : ∀ (r : (component T).State × Act Call (Signal T) Unit (component T).Point) (p : Nat)
    (k : Point), Open.Runs NoticeRules st r → r.2 = .ask p .cancel k →
      st.views p = false ∧ values (heard 0 st.log) = 1

/-- A value is followed by nothing but the end marker. -/
def Final (events : List (StatusOr T)) : Prop :=
  ∀ v e, events = [.value v, e] → e.isDone = true

/-- A cancellation is made after a value and when the stream has not ended. -/
theorem guarded_reach (st : Open (component T))
    (h : Open.Reach subscriptionCheck NoticeRules st)
    (r : (component T).State × Act Call (Signal T) Unit (component T).Point) (p : Nat) (k : Point)
    (hruns : Open.Runs NoticeRules st r) (hask : r.2 = .ask p .cancel k) :
    st.views p = false ∧ values (heard 0 st.log) = 1 := by
  cases hruns with
  | call c _ _ =>
      cases c with
      | subscribe => cases hask
      | request n => cases hask
      | cancel => cases hask
  | said q i o _ _ _ =>
      cases o with
      | onSubscribe => cases hask
      | onNext e =>
          simp only [component, onNext] at hask
          split at hask
          · split at hask
            · cases hask
            · cases hask
          · cases hask
      | destroy => cases hask
  | resume k' hresumes =>
      cases k' with
      | done => cases hask
      | listened q isEnd =>
          simp only [component, listened] at hask
          split at hask
          · next hgo =>
              rw [Bool.and_eq_true, Bool.not_eq_true', Bool.not_eq_true'] at hgo
              cases hask
              rcases hgo with ⟨rfl, hview⟩
              refine ⟨hview, ?_⟩
              rcases notices_reach st h with ⟨m, hfits⟩ | ⟨hfailed, -⟩
              · rcases hresumes with ⟨-, -, who, rest, htop⟩ | ⟨hrun, -⟩
                · -- the point is on the stack only while a value is being listened to
                  have hframes := hfits.frames
                  rw [htop, Open.Modes.stacked_cons] at hframes
                  have htracked : (notices T).tracked (.listened p false) = true := rfl
                  rw [if_pos htracked] at hframes
                  cases m with
                  | waiting => cases hframes
                  | listening => exact hfits.facts.2.1
                  | past => cases hframes
                · exact absurd (hfits.turn.symm.trans hrun) fun hno => (by cases hno)
              · exact absurd (hresumes.isFailed.symm.trans hfailed) Bool.false_ne_true
          · cases hask

/-- The listener is called once exactly when no error follows a value. -/
theorem notified_iff (st : Open (component T)) (h : Open.Reach subscriptionCheck NoticeRules st)
    (hrun : st.turn.isFailed = false) : Notified st ↔ Final (heard 0 st.log) := by
  rcases notices_reach st h with ⟨m, hfits⟩ | ⟨hfailed, -⟩
  · have htelling : Telling st.state st.kinds st.log := hfits.facts.1
    constructor
    · intro hnotified v e heq
      have honce := hnotified.once
      rw [htelling.hears, heq, announced, List.take_succ_cons, List.take_zero,
        List.drop_succ_cons, List.drop_zero, List.append_right_eq_self, List.filter_cons] at honce
      by_contra hno
      rw [Bool.not_eq_true] at hno
      rw [hno, Bool.not_false, if_pos rfl] at honce
      cases honce
    · intro hfinal
      refine ⟨?_, htelling.once, fun r p k hruns hask => guarded_reach st h r p k hruns hask⟩
      rw [htelling.hears, announced, List.append_right_eq_self]
      have horderly := htelling.orderly
      have hatMost := htelling.atMost
      generalize hevents : heard 0 st.log = events at *
      cases events with
      | nil => rfl
      | cons a events =>
          cases events with
          | nil => rfl
          | cons b events =>
              have ha := horderly a (by
                rw [List.dropLast_cons_of_ne_nil (List.cons_ne_nil _ _)]
                exact List.mem_cons_self)
              cases events with
              | nil =>
                  cases a with
                  | value v =>
                      rw [List.drop_succ_cons, List.drop_zero, List.filter_cons,
                        hfinal v b rfl, Bool.not_true, if_neg Bool.false_ne_true, List.filter_nil]
                  | status s hs =>
                      exact absurd (ha.symm.trans (StatusOr.isEnd_status s hs)) Bool.false_ne_true
              | cons c events =>
                  -- two values before a third event are one too many
                  have hb := horderly b (by
                    rw [List.dropLast_cons_of_ne_nil (List.cons_ne_nil _ _),
                      List.dropLast_cons_of_ne_nil (List.cons_ne_nil _ _)]
                    exact List.mem_cons_of_mem _ List.mem_cons_self)
                  have htwo : values (a :: b :: c :: events) = values (c :: events) + 1 + 1 := by
                    rw [values, List.countP_cons, List.countP_cons, ha, hb]
                    rfl
                  omega
  · exact absurd (hrun.symm.trans hfailed) Bool.false_ne_true

/-- The stream sends a value and, after it was cancelled, its end. -/
def afterCancel (e : StatusOr Nat) : List (Move Call Bool Unit (fun _ => Signal Nat)) :=
  [ .call .subscribe, .said 0 () .onSubscribe, .reply, .reply, .said 0 () (.onNext (.value 7)),
    .reply, .reply, .said 0 () (.onNext e) ]

theorem notified_iff_done : ∃ st : Open (component Nat),
    Open.Reach subscriptionCheck NoticeRules st ∧ heard 0 st.log = [.value 7, .done] ∧
      (Notified st ↔ Final (heard 0 st.log)) := by
  rcases Open.exists_reach_of_play subscriptionCheck NoticeRules (afterCancel .done)
    (fun (st : Open (component Nat)) => !st.turn.isFailed &&
      decide (heard 0 st.log = [.value 7, .done])) (by decide +kernel) with ⟨st, hst, htest⟩
  rw [Bool.and_eq_true, decide_eq_true_eq, Bool.not_eq_true'] at htest
  exact ⟨st, hst, htest.2, notified_iff st hst htest.1⟩

/-- An error that arrives after the cancellation is heard, too. -/
theorem twice : ∃ st : Open (component Nat),
    Open.Reach subscriptionCheck NoticeRules st ∧ st.turn.isFailed = false ∧
      received st.log = [.value 7, .status ⟨.internal, ""⟩ (by decide)] ∧ ¬ Notified st := by
  rcases Open.exists_reach_of_play subscriptionCheck NoticeRules
    (afterCancel (.status ⟨.internal, ""⟩ (by decide)))
    (fun (st : Open (component Nat)) => !st.turn.isFailed &&
      decide (received st.log = [.value 7, .status ⟨.internal, ""⟩ (by decide)]))
    (by decide +kernel) with ⟨st, hst, htest⟩
  rw [Bool.and_eq_true, decide_eq_true_eq, Bool.not_eq_true'] at htest
  refine ⟨st, hst, htest.1, htest.2, fun hnotified => ?_⟩
  have hlength := congrArg List.length hnotified.once
  rw [htest.2, List.length_map, List.length_take] at hlength
  simp only [List.length_cons, List.length_nil] at hlength
  omega

end SingleSubscriber

end RxCppUniq
