import RxCppUniq.Flow.PrefetchCancel
import RxCppUniq.Theory.Promises

/-!
# The Look-Ahead of Prefetch

A `PrefetchingStream` asks for events which nobody has asked it for, and has
to have room for them. What is in the buffer and what the upstream still owes
never exceed the size of the buffer, at no place of the code, so the branch
for an overflow is dead and so is the check that would catch it.

The subscriber requests what it likes, an infinite number of tokens included,
and does not cancel. The upstream has strict flow control and answers when it
likes, also from inside the request in the middle of `MaybeFill`.

That the stream does not stall is a promise: the methods that empty the buffer
fill it up before they return.

## Main definitions

* `PrefetchingStream.AheadRules`: What the partners may do.
* `PrefetchingStream.Ahead`: The invariant.
* `PrefetchingStream.looping`, `PrefetchingStream.fed`: Nobody is left in the
  loop, and the stream is not stalled.
* `PrefetchingStream.LookAhead`: What is bounded, and what is never reached.

## Theorems

* `PrefetchingStream.ahead_reach`: The invariant holds of every reachable
  state.
* `PrefetchingStream.lookAhead_reach`: So the look-ahead is bounded.
-/

namespace RxCppUniq

open Theory

namespace PrefetchingStream

variable {T : Type} {publisher : PrefetchingPublisher}

/-- The rules for the partners of a `PrefetchingStream`. A request may be for
    any number of tokens, and the subscriber does not cancel; the upstream has
    strict flow control, and does not come back once its stream has ended. -/
def AheadRules (st : Open (component T publisher)) :
    Move Call Bool Unit (fun _ => Signal T) → Prop
  | .call .subscribe => st.log.isEmpty = true
  | .call (.request n) => RxCppUniq.subscribed st.log = true ∧ n ≤ kMax
  | .call .cancel => False
  | .said p _ s => Protocol.stream p st.log s
  | .reply => True
  | .view _ v => v = true
  | .run => True

instance (st : Open (component T publisher)) (m : Move Call Bool Unit (fun _ => Signal T)) :
    Decidable (AheadRules st m) :=
  match m with
  | .call .subscribe => inferInstanceAs (Decidable (_ = _))
  | .call (.request _) => inferInstanceAs (Decidable (_ ∧ _))
  | .call .cancel => inferInstanceAs (Decidable False)
  | .said _ _ _ => inferInstanceAs (Decidable (Protocol.stream _ _ _))
  | .reply => inferInstanceAs (Decidable True)
  | .view _ _ => inferInstanceAs (Decidable (_ = _))
  | .run => inferInstanceAs (Decidable True)

/-- What the buffer and the balances are, in terms of the calls. -/
structure Ahead (publisher : PrefetchingPublisher) (s : PrefetchingStream T)
    (kinds : List Unit) (log : Log T Unit (fun _ => T)) : Prop where
  single : kinds.length ≤ 1
  fresh : log = [] → kinds = []
  upstream : ∀ p, s.upstreamSubscription = some p → p = 0
  order : received log ++ s.buffer = heard 0 log
  owed : s.upstreamRequestBalance.balance + (heard 0 log).length = tokens 0 log
  room : s.buffer.length + s.upstreamRequestBalance.balance ≤ publisher.bufferSize
  orderly : ∀ e ∈ (heard 0 log).dropLast, e.isEnd = false

section Keeps

variable {s : PrefetchingStream T} {kinds : List Unit} {log before : Log T Unit (fun _ => T)}

/-- Once an end was delivered the buffer is empty. -/
theorem Ahead.empty (h : Ahead publisher s kinds log) (hend : RxCppUniq.delivered log = true) :
    s.buffer = [] := by
  by_contra hne
  rw [RxCppUniq.delivered, List.any_eq_true] at hend
  rcases hend with ⟨e, he, hisEnd⟩
  have hrun := h.orderly e (by
    rw [← h.order, List.dropLast_append_of_ne_nil hne]
    exact List.mem_append_left _ he)
  exact absurd (hrun.symm.trans hisEnd) Bool.false_ne_true

/-- An entry that brings nothing, delivers nothing and asks for nothing, and
    code that touches neither the buffer nor what is owed. -/
theorem Ahead.note (h : Ahead publisher s kinds log) (t : PrefetchingStream T)
    (n : Entry T Unit (fun _ => T)) (htokens : n.tokens 0 = 0) (hheard : n.heard 0 = none)
    (hreceived : n.received = none)
    (hupstream : ∀ p, t.upstreamSubscription = some p → p = 0) (hbuffer : t.buffer = s.buffer)
    (howed : t.upstreamRequestBalance = s.upstreamRequestBalance) :
    Ahead publisher t kinds (n :: log) := by
  have hrec : received (n :: log) = received log := by
    rw [received_cons, hreceived, Option.toList_none, List.append_nil]
  have hhear : heard 0 (n :: log) = heard 0 log := by
    rw [heard_cons, hheard, Option.toList_none, List.append_nil]
  have htok : tokens 0 (n :: log) = tokens 0 log := by rw [tokens_cons, htokens, Nat.add_zero]
  refine ⟨h.single, fun hnil => (by cases hnil), hupstream, ?_, ?_, ?_, ?_⟩
  · rw [hrec, hbuffer, hhear]
    exact h.order
  · rw [howed, hhear, htok]
    exact h.owed
  · rw [hbuffer, howed]
    exact h.room
  · rw [hhear]
    exact h.orderly

/-- The invariant. After the last event was delivered the code relies on
    nothing being left. -/
def ahead (publisher : PrefetchingPublisher) : Open.Spec (component T publisher) where
  Core := Ahead publisher
  Frame k _ _ log := k = .delivered true → RxCppUniq.delivered log = true
  Safe _ _ := True

theorem ahead_keeps {n : List (Entry T Unit (fun _ => T))} {r : Result T}
    (hlog : log = n ++ before)
    (hnext : ∀ k, r.2.next = some k → k = .delivered true →
      RxCppUniq.delivered (r.2.log kinds log) = true)
    (h : (∃ msg, r.2 = .fail msg) ∨
      Ahead publisher r.1 (r.2.kinds kinds) (r.2.log kinds log)) :
    (ahead publisher).Keeps s kinds before log r := by
  refine ⟨trivial, h, hnext, fun k _ hframe hk => delivered_act kinds log r.2 ?_⟩
  rw [hlog]
  exact delivered_append n before (hframe hk)

theorem ahead_fails (t : PrefetchingStream T) (msg : String) :
    (ahead publisher).Keeps s kinds before log (t, .fail msg) :=
  ⟨trivial, Or.inl ⟨msg, rfl⟩, fun k hk => (by cases hk), fun k hno => absurd rfl (hno msg)⟩

theorem ahead_maybeDeliver {n : List (Entry T Unit (fun _ => T))} {t : PrefetchingStream T}
    (hlog : log = n ++ before) (h : Ahead publisher t kinds log) :
    (ahead publisher).Keeps s kinds before log t.maybeDeliver := by
  unfold maybeDeliver
  by_cases hdelivering : t.delivering = true
  · rw [if_pos hdelivering]
    exact ahead_keeps hlog (fun k hk => (by cases hk)) (Or.inr h)
  · rw [if_neg hdelivering]
    refine ahead_keeps hlog (fun k hk hno => ?_) (Or.inr { h with })
    rw [← Option.some.inj hk] at hno
    cases hno

theorem ahead_release {n : List (Entry T Unit (fun _ => T))} {t : PrefetchingStream T}
    (hlog : log = n ++ before) (h : Ahead publisher t kinds log) :
    (ahead publisher).Keeps s kinds before log t.release := by
  unfold release
  by_cases hheld : (t.selfLock || t.wrapped || t.created || t.hasEnded) = true
  · rw [if_pos hheld]
    exact ahead_keeps hlog (fun k hk => (by cases hk)) (Or.inr h)
  · rw [if_neg hheld]
    refine ahead_keeps hlog (fun k hk hno => ?_)
      (Or.inr (h.note { t with hasEnded := true } (.out .destroy) rfl rfl rfl h.upstream rfl rfl))
    rw [← Option.some.inj hk] at hno
    cases hno

/-- What is first in the buffer is delivered. -/
theorem ahead_deliver (h : Ahead publisher s kinds log) :
    (ahead publisher).Keeps s kinds log log s.deliver := by
  have hstay : (ahead publisher).Keeps s kinds log log ({ s with delivering := false }, .ret) :=
    ahead_keeps (List.nil_append log).symm (fun k hk => (by cases hk)) (Or.inr { h with })
  unfold deliver
  cases hbuf : s.buffer with
  | nil =>
      rw [hbuf] at hstay
      exact hstay
  | cons e buffer =>
      simp only
      by_cases hrequests : s.requestBalance.hasRequests = true
      · rw [if_pos hrequests]
        cases hremove : s.requestBalance.remove 1 with
        | none => exact ahead_fails s _
        | some b =>
            have horder := h.order
            have hroom := h.room
            rw [hbuf] at horder hroom
            rw [List.length_cons] at hroom
            refine ahead_keeps (List.nil_append log).symm (fun k hk hno => ?_)
              (Or.inr ⟨h.single, fun hnil => (by cases hnil), h.upstream, ?_, ?_, ?_, ?_⟩)
            · -- the point after the last event is reached only by way of an end
              have hisEnd : e.isEnd = true := by
                rw [← Option.some.inj hk] at hno
                exact Point.delivered.inj hno
              exact delivered_end e log hisEnd
            · simpa using horder
            · simpa using h.owed
            · simp only
              omega
            · simpa using h.orderly
      · rw [if_neg hrequests]
        rw [hbuf] at hstay
        exact hstay

/-- What is asked for fills the buffer up, together with what is owed. -/
theorem ahead_maybeFill (hlt : publisher.bufferSize < kMax) (h : Ahead publisher s kinds log)
    (views : Nat → Bool) (k : Point) (hk : k ≠ .delivered true) :
    (ahead publisher).Keeps s kinds log log (s.maybeFill publisher views k) := by
  have hstay : (ahead publisher).Keeps s kinds log log (s, .goto k) :=
    ahead_keeps (List.nil_append log).symm
      (fun k' hk' hno => absurd ((Option.some.inj hk').trans hno) hk) (Or.inr h)
  unfold maybeFill
  cases hup : s.upstreamSubscription with
  | none => exact ahead_fails s _
  | some p =>
      rw [h.upstream p hup]
      simp only
      by_cases hview : views 0 = true
      · rw [if_pos hview]
        exact hstay
      · rw [if_neg hview]
        by_cases hfull : publisher.refill < s.buffer.length
        · rw [if_pos hfull]
          exact hstay
        · rw [if_neg hfull]
          by_cases hasked : s.toFill publisher ≤ s.upstreamRequestBalance.balance
          · rw [if_pos hasked]
            exact hstay
          · rw [if_neg hasked]
            have howed := h.owed
            have hroom := h.room
            unfold toFill at hasked
            -- what is owed and what is asked for now make up what is missing
            have hadd : (s.upstreamRequestBalance.add
                (s.toFill publisher - s.upstreamRequestBalance.balance)).balance =
                s.toFill publisher := by
              rw [RequestBalance.balance_add, toFill]
              omega
            refine ahead_keeps (List.nil_append log).symm
              (fun k' hk' hno => absurd ((Option.some.inj hk').trans hno) hk)
              (Or.inr ⟨h.single, fun hnil => (by cases hnil),
                fun q hq => (Option.some.inj hq).symm, ?_, ?_, ?_, ?_⟩)
            · simpa using h.order
            · simp only [Act.log, tokens_cons, Entry.tokens, if_true, Call.count, heard_cons,
                Entry.heard, Option.toList_none, List.append_nil, hadd]
              unfold toFill
              omega
            · simp only [hadd]
              unfold toFill
              omega
            · simpa using h.orderly

/-- What an upstream may send has room, and is owed. -/
theorem Ahead.expected (h : Ahead publisher s kinds log) (e : StatusOr T)
    (hok : Protocol.stream 0 log (.onNext e : Signal T)) :
    s.buffer.length < publisher.bufferSize ∧ 0 < s.upstreamRequestBalance.balance ∧
      ∀ x ∈ heard 0 log, x.isEnd = false := by
  rcases hok with ⟨-, -, hstrict⟩
  rw [strict_append, arrived_eq_heard, List.length_map] at hstrict
  have howed := h.owed
  have hroom := h.room
  refine ⟨by omega, by omega, fun x hx => ?_⟩
  rw [StatusOr.isEnd, hstrict.2 _ (List.mem_map_of_mem hx)]
  rfl

/-- An event arrives, for which there is room. -/
theorem ahead_onNext (hlt : publisher.bufferSize < kMax) (h : Ahead publisher s kinds log)
    (e : StatusOr T) (hok : Protocol.stream 0 log (.onNext e : Signal T)) :
    (ahead publisher).Keeps s kinds log (.said 0 () (.onNext e) :: log) (s.onNext publisher e) := by
  rcases h.expected e hok with ⟨hfull, howes, hopen⟩
  rcases RequestBalance.remove_isSome _ howes with ⟨b, hb⟩
  have hroom := h.room
  have howed := h.owed
  have hsub := RequestBalance.remove_of_lt _ _ _ (by omega) hb
  unfold onNext
  rw [if_neg (by omega), hb]
  refine ahead_maybeDeliver (n := [.said 0 () (.onNext e)]) rfl
    ⟨h.single, fun hnil => (by cases hnil), h.upstream, ?_, ?_, ?_, ?_⟩
  · have horder := h.order
    simp only [received_cons, Entry.received, Option.toList_none, List.append_nil, heard_cons,
      Entry.heard, if_true, Signal.event?, Option.toList_some, ← horder, List.append_assoc]
  · simp
    omega
  · simp
    omega
  · simpa using hopen

end Keeps

theorem ahead_init : Ahead publisher ({} : PrefetchingStream T) [] [] :=
  ⟨Nat.zero_le _, fun _ => rfl, fun p hp => (by cases hp), rfl, rfl, Nat.zero_le _,
    fun e he => (by cases he)⟩

/-- The upstream is the only part. -/
theorem Ahead.only {s : PrefetchingStream T} {kinds : List Unit} {log : Log T Unit (fun _ => T)}
    (h : Ahead publisher s kinds log) (p : Nat) (i : Unit) (hkind : kinds[p]? = some i) :
    p = 0 := by
  have hlt := (List.getElem?_eq_some_iff.mp hkind).1
  have hsingle := h.single
  omega

theorem ahead_call (st : Open (component T publisher)) (c : Call) (hok : AheadRules st (.call c))
    (h : Ahead publisher st.state st.kinds st.log) :
    (ahead publisher).Keeps st.state st.kinds st.log (.call c :: st.log)
      ((component T publisher).call st.views st.state c) := by
  cases c with
  | subscribe =>
      have hcalled := h.note st.state (.call .subscribe) rfl rfl rfl h.upstream rfl rfl
      simp only [component, subscribe]
      by_cases hsize : publisher.bufferSize = 0
      · rw [if_pos hsize]
        exact ahead_fails st.state _
      · rw [if_neg hsize]
        have hmake := hcalled.note
          { st.state with created := true, selfLock := true, wrapped := true }
          (.ask st.kinds.length .subscribe) (ite_self _) rfl rfl h.upstream rfl rfl
        refine ahead_keeps (n := [.call .subscribe]) rfl (fun k hk hno => ?_)
          (Or.inr { hmake with single := ?_, fresh := fun hnil => (by cases hnil) })
        · rw [← Option.some.inj hk] at hno
          cases hno
        · have hnil := h.fresh (List.isEmpty_iff.mp hok)
          simp only [Act.kinds, hnil]
          exact Nat.le_refl 1
  | request n =>
      exact ahead_maybeDeliver (n := [.call (.request n)]) rfl
        (h.note _ (.call (.request n)) rfl rfl rfl h.upstream rfl rfl)
  | cancel => exact hok.elim

theorem ahead_said (hlt : publisher.bufferSize < kMax) (st : Open (component T publisher))
    (p : Nat) (i : Unit) (o : Signal T) (hok : AheadRules st (.said p i o))
    (hkind : st.kinds[p]? = some i) (h : Ahead publisher st.state st.kinds st.log) :
    (ahead publisher).Keeps st.state st.kinds st.log (.said p i o :: st.log)
      ((component T publisher).said st.views st.state p i o) := by
  have hp := h.only p i hkind
  subst hp
  cases o with
  | onSubscribe =>
      simp only [component, onSubscribe]
      by_cases hagain : st.state.upstreamSubscription.isSome = true
      · rw [if_pos hagain]
        exact ahead_fails st.state _
      · rw [if_neg hagain]
        have hsaid := h.note { st.state with upstreamSubscription := some 0 }
          (.said 0 i .onSubscribe) rfl rfl rfl (fun q hq => (Option.some.inj hq).symm) rfl rfl
        refine ahead_keeps (n := [.said 0 i .onSubscribe]) rfl (fun k hk hno => ?_)
          (Or.inr (hsaid.note _ (.out .onSubscribe) rfl rfl rfl hsaid.upstream rfl rfl))
        rw [← Option.some.inj hk] at hno
        cases hno
  | onNext e => exact ahead_onNext hlt h e hok
  | destroy =>
      exact ahead_release (n := [.said 0 i .destroy]) rfl
        (h.note { st.state with wrapped := false } (.said 0 i .destroy) rfl rfl rfl h.upstream rfl
          rfl)

theorem ahead_resume (hlt : publisher.bufferSize < kMax) (st : Open (component T publisher))
    (k : Point) (h : Ahead publisher st.state st.kinds st.log) :
    (ahead publisher).Keeps st.state st.kinds st.log st.log
      ((component T publisher).resume st.views st.state k) := by
  have hnil := (List.nil_append st.log).symm
  -- only after an event that was no end is the buffer filled again
  cases k with
  | done => exact ahead_keeps hnil (fun k hk => (by cases hk)) (Or.inr h)
  | subscribed => exact ahead_release hnil { h with }
  | confirmed =>
      simp only [component]
      by_cases hended : st.state.hasEnded = true
      · rw [if_pos hended]
        exact ahead_fails st.state _
      · rw [if_neg hended]
        exact ahead_maybeFill hlt h st.views .done (fun hno => (by cases hno))
  | deliver => exact ahead_deliver h
  | delivered isEnd =>
      simp only [component, delivered]
      by_cases hended : st.state.hasEnded = true
      · rw [if_pos hended]
        exact ahead_fails st.state _
      · rw [if_neg hended]
        by_cases hisEnd : isEnd = true
        · rw [if_pos hisEnd]
          exact ahead_release hnil { h with }
        · rw [if_neg hisEnd]
          exact ahead_maybeFill hlt h st.views .filled (fun hno => (by cases hno))
  | filled =>
      simp only [component, filled]
      by_cases hended : st.state.hasEnded = true
      · rw [if_pos hended]
        exact ahead_fails st.state _
      · rw [if_neg hended]
        by_cases hempty : st.state.buffer.isEmpty = true
        · rw [if_pos hempty]
          exact ahead_keeps hnil (fun k hk => (by cases hk)) (Or.inr { h with })
        · rw [if_neg hempty]
          refine ahead_keeps hnil (fun k hk hno => ?_) (Or.inr h)
          rw [← Option.some.inj hk] at hno
          cases hno

theorem ahead_reach (hlt : publisher.bufferSize < kMax) (st : Open (component T publisher))
    (h : Open.Reach subscriptionCheck AheadRules st) : (ahead publisher).Holds st :=
  (ahead publisher).holds_reach subscriptionCheck AheadRules ahead_init
    (fun st c _ hok _ hahead => ahead_call st c hok hahead)
    (fun st p i o _ hok hkind hahead => ahead_said hlt st p i o hok hkind hahead)
    (fun st k _ _ hahead _ => ahead_resume hlt st k hahead) st h

/-- Nobody is in the loop, and it would find nothing to do; the points of the
    loop see to it. -/
def looping (T : Type) (publisher : PrefetchingPublisher) :
    Open.Promise (component T publisher) where
  Kept _ s _ := s.delivering = false ∧ (s.requestBalance.balance = 0 ∨ s.buffer = [])
  due
    | .done => false
    | .subscribed => false
    | .confirmed => false
    | .deliver => true
    | .delivered _ => true
    | .filled => true

/-- The stream is not stalled: there is something to deliver or something to
    come, or the upstream has ended. The code after a delivery sees to it, and
    the one after the subscription was handed out. -/
def fed (T : Type) (publisher : PrefetchingPublisher) :
    Open.Promise (component T publisher) where
  Kept views s log := s.upstreamSubscription ≠ none →
    views 0 = true ∨ 0 < s.upstreamRequestBalance.balance ∨ s.buffer ≠ [] ∨
      RxCppUniq.delivered log = true
  due
    | .done => false
    | .subscribed => false
    | .confirmed => true
    | .deliver => false
    | .delivered _ => true
    | .filled => false

section Promises

variable {s : PrefetchingStream T} {views : Nat → Bool} {kinds : List Unit}
  {log : Log T Unit (fun _ => T)}

/-- The loop is entered, unless somebody is in it. -/
theorem looping_maybeDeliver (t : PrefetchingStream T) (found : Prop)
    (hfound : found → t.delivering = false) :
    (looping T publisher).Meets found views kinds log t.maybeDeliver := by
  unfold maybeDeliver
  by_cases hdelivering : t.delivering = true
  · rw [if_pos hdelivering]
    exact Or.inr (Or.inr fun hno => absurd ((hfound hno).symm.trans hdelivering)
      Bool.false_ne_true)
  · rw [if_neg hdelivering]
    exact Or.inr (Or.inl ⟨.deliver, rfl, rfl⟩)

theorem looping_release (t : PrefetchingStream T) (found : Prop)
    (hfound : found → t.delivering = false ∧ (t.requestBalance.balance = 0 ∨ t.buffer = [])) :
    (looping T publisher).Meets found views kinds log t.release := by
  unfold release
  by_cases hheld : (t.selfLock || t.wrapped || t.created || t.hasEnded) = true
  · rw [if_pos hheld]
    exact Or.inr (Or.inr hfound)
  · rw [if_neg hheld]
    exact Or.inr (Or.inr hfound)

theorem looping_deliver (found : Prop) :
    (looping T publisher).Meets found views kinds log s.deliver := by
  unfold deliver
  cases hbuf : s.buffer with
  | nil => exact Or.inr (Or.inr fun _ => ⟨rfl, Or.inr rfl⟩)
  | cons e buffer =>
      simp only
      by_cases hrequests : s.requestBalance.hasRequests = true
      · rw [if_pos hrequests]
        cases s.requestBalance.remove 1 with
        | none => exact Or.inl ⟨_, rfl⟩
        | some b => exact Or.inr (Or.inl ⟨_, rfl, rfl⟩)
      · rw [if_neg hrequests]
        rw [RequestBalance.hasRequests_iff] at hrequests
        exact Or.inr (Or.inr fun _ => ⟨rfl, Or.inl (Nat.eq_zero_of_not_pos hrequests)⟩)

/-- `MaybeFill` is no part of the loop, and goes on where it is told. -/
theorem looping_maybeFill (k : Point) (found : Prop)
    (h : (looping T publisher).due k = true ∨ (found → s.delivering = false ∧
      (s.requestBalance.balance = 0 ∨ s.buffer = []))) :
    (looping T publisher).Meets found views kinds log (s.maybeFill publisher views k) := by
  have hgo : (looping T publisher).Meets found views kinds log (s, .goto k) :=
    h.elim (fun hdue => Or.inr (Or.inl ⟨k, rfl, hdue⟩)) fun hkept => Or.inr (Or.inr hkept)
  unfold maybeFill
  cases hup : s.upstreamSubscription with
  | none => exact Or.inl ⟨_, rfl⟩
  | some p =>
      simp only
      by_cases hview : views p = true
      · rw [if_pos hview]
        exact hgo
      · rw [if_neg hview]
        by_cases hfull : publisher.refill < s.buffer.length
        · rw [if_pos hfull]
          exact hgo
        · rw [if_neg hfull]
          by_cases hasked : s.toFill publisher ≤ s.upstreamRequestBalance.balance
          · rw [if_pos hasked]
            exact hgo
          · rw [if_neg hasked]
            exact h.elim (fun hdue => Or.inr (Or.inl ⟨k, rfl, hdue⟩))
              fun hkept => Or.inr (Or.inr hkept)

/-- What is due after an end was delivered finds the buffer empty. -/
theorem ahead_end (hlt : publisher.bufferSize < kMax) (st : Open (component T publisher))
    (h : Open.Reach subscriptionCheck AheadRules st)
    (hresumes : Open.Resumes AheadRules st (.delivered true)) :
    st.state.buffer = [] ∧ RxCppUniq.delivered st.log = true := by
  have hholds := ahead_reach hlt st h
  have hahead : Ahead publisher st.state st.kinds st.log := hholds.core hresumes.isFailed
  have hend : RxCppUniq.delivered st.log = true := hholds.resumed hresumes rfl
  exact ⟨hahead.empty hend, hend⟩

end Promises

theorem looping_reach (hlt : publisher.bufferSize < kMax) (st : Open (component T publisher))
    (h : Open.Reach subscriptionCheck AheadRules st) : (looping T publisher).Stands st := by
  refine (looping T publisher).stands_reach subscriptionCheck AheadRules ⟨rfl, Or.inr rfl⟩ ?_ ?_ ?_
    (fun _ _ _ _ hkept => hkept) st h
  · intro st c _ _ hok
    cases c with
    | subscribe =>
        simp only [component, subscribe]
        by_cases hsize : publisher.bufferSize = 0
        · rw [if_pos hsize]
          exact Or.inl ⟨_, rfl⟩
        · rw [if_neg hsize]
          exact Or.inr (Or.inr fun hkept => hkept)
    | request n => exact looping_maybeDeliver _ _ fun hkept => hkept.1
    | cancel => exact hok.elim
  · intro st p i o _ _ _ _
    cases o with
    | onSubscribe =>
        simp only [component, onSubscribe]
        by_cases hagain : st.state.upstreamSubscription.isSome = true
        · rw [if_pos hagain]
          exact Or.inl ⟨_, rfl⟩
        · rw [if_neg hagain]
          exact Or.inr (Or.inr fun hkept => hkept)
    | onNext e =>
        simp only [component, onNext]
        by_cases hfull : publisher.bufferSize ≤ st.state.buffer.length
        · rw [if_pos hfull]
          exact looping_maybeDeliver _ _ fun hkept => hkept.1
        · rw [if_neg hfull]
          cases st.state.upstreamRequestBalance.remove 1 with
          | none => exact Or.inl ⟨_, rfl⟩
          | some b => exact looping_maybeDeliver _ _ fun hkept => hkept.1
    | destroy => exact looping_release _ _ fun hkept => hkept
  · intro st k hreach hresumes
    cases k with
    | done => exact Or.inr (Or.inr fun hkept => hkept rfl)
    | subscribed => exact looping_release _ _ fun hkept => hkept rfl
    | confirmed =>
        simp only [component]
        by_cases hended : st.state.hasEnded = true
        · rw [if_pos hended]
          exact Or.inl ⟨_, rfl⟩
        · rw [if_neg hended]
          exact looping_maybeFill .done _ (Or.inr fun hkept => hkept rfl)
    | deliver => exact looping_deliver _
    | delivered isEnd =>
        simp only [component, delivered]
        by_cases hended : st.state.hasEnded = true
        · rw [if_pos hended]
          exact Or.inl ⟨_, rfl⟩
        · rw [if_neg hended]
          cases isEnd with
          -- the last event was the end, so nothing is buffered behind it
          | true =>
              rw [if_pos rfl]
              exact looping_release _ _ fun _ =>
                ⟨rfl, Or.inr (ahead_end hlt st hreach hresumes).1⟩
          | false =>
              rw [if_neg Bool.false_ne_true]
              exact looping_maybeFill .filled _ (Or.inl rfl)
    -- the loop stops with nothing buffered
    | filled =>
        simp only [component, filled]
        by_cases hended : st.state.hasEnded = true
        · rw [if_pos hended]
          exact Or.inl ⟨_, rfl⟩
        · rw [if_neg hended]
          by_cases hempty : st.state.buffer.isEmpty = true
          · rw [if_pos hempty]
            exact Or.inr (Or.inr fun _ => ⟨rfl, Or.inr (List.isEmpty_iff.mp hempty)⟩)
          · rw [if_neg hempty]
            exact Or.inr (Or.inl ⟨.deliver, rfl, rfl⟩)

section Fed

variable {s : PrefetchingStream T} {views : Nat → Bool} {kinds : List Unit}
  {log before : Log T Unit (fun _ => T)}

/-- Code that keeps the buffer and what is owed, and takes back no delivery,
    does not stall the stream. -/
theorem fed_same {r : Result T} (new : Log T Unit (fun _ => T)) (found : Prop)
    (hfound : found → (fed T publisher).Kept views s before)
    (hlog : r.2.log kinds log = new ++ before)
    (hupstream : r.1.upstreamSubscription = s.upstreamSubscription)
    (hbuffer : r.1.buffer = s.buffer)
    (howed : r.1.upstreamRequestBalance = s.upstreamRequestBalance) :
    (fed T publisher).Meets found views kinds log r := by
  refine Or.inr (Or.inr fun hyes hsome => ?_)
  rw [hupstream] at hsome
  rw [hbuffer, howed, hlog]
  rcases hfound hyes hsome with hview | howes | hbuf | hend
  · exact Or.inl hview
  · exact Or.inr (Or.inl howes)
  · exact Or.inr (Or.inr (Or.inl hbuf))
  · exact Or.inr (Or.inr (Or.inr (delivered_append new before hend)))

theorem fed_maybeDeliver (t : PrefetchingStream T) (n : Entry T Unit (fun _ => T)) (found : Prop)
    (hfound : found → (fed T publisher).Kept views s log)
    (hupstream : t.upstreamSubscription = s.upstreamSubscription) (hbuffer : t.buffer = s.buffer)
    (howed : t.upstreamRequestBalance = s.upstreamRequestBalance) :
    (fed T publisher).Meets found views kinds (n :: log) t.maybeDeliver := by
  unfold maybeDeliver
  by_cases hdelivering : t.delivering = true
  · rw [if_pos hdelivering]
    exact fed_same [n] found hfound rfl hupstream hbuffer howed
  · rw [if_neg hdelivering]
    exact fed_same [n] found hfound rfl hupstream hbuffer howed

theorem fed_release (t : PrefetchingStream T) (new : Log T Unit (fun _ => T)) (found : Prop)
    (hfound : found → (fed T publisher).Kept views s before) (hlog : log = new ++ before)
    (hupstream : t.upstreamSubscription = s.upstreamSubscription) (hbuffer : t.buffer = s.buffer)
    (howed : t.upstreamRequestBalance = s.upstreamRequestBalance) :
    (fed T publisher).Meets found views kinds log t.release := by
  unfold release
  by_cases hheld : (t.selfLock || t.wrapped || t.created || t.hasEnded) = true
  · rw [if_pos hheld]
    exact fed_same new found hfound hlog hupstream hbuffer howed
  · rw [if_neg hheld]
    exact fed_same (.out .destroy :: new) found hfound (congrArg _ hlog) hupstream hbuffer howed

/-- What has arrived is in the buffer. -/
theorem fed_onNext (e : StatusOr T) (found : Prop) :
    (fed T publisher).Meets found views kinds log (s.onNext publisher e) := by
  have hdeliver (t : PrefetchingStream T) (ht : t.buffer ≠ []) :
      (fed T publisher).Meets found views kinds log t.maybeDeliver := by
    unfold maybeDeliver
    by_cases hdelivering : t.delivering = true
    · rw [if_pos hdelivering]
      exact Or.inr (Or.inr fun _ _ => Or.inr (Or.inr (Or.inl ht)))
    · rw [if_neg hdelivering]
      exact Or.inr (Or.inr fun _ _ => Or.inr (Or.inr (Or.inl ht)))
  unfold onNext
  by_cases hfull : publisher.bufferSize ≤ s.buffer.length
  · rw [if_pos hfull]
    exact hdeliver _ (List.append_ne_nil_of_right_ne_nil _ (List.cons_ne_nil _ _))
  · rw [if_neg hfull]
    cases s.upstreamRequestBalance.remove 1 with
    | none => exact Or.inl ⟨_, rfl⟩
    | some b => exact hdeliver _ (List.append_ne_nil_of_right_ne_nil _ (List.cons_ne_nil _ _))

/-- A delivery is followed by the code that fills the buffer up. -/
theorem fed_deliver (found : Prop) (hfound : found → (fed T publisher).Kept views s log) :
    (fed T publisher).Meets found views kinds log s.deliver := by
  have hstay : (fed T publisher).Meets found views kinds log
      (({ s with delivering := false }, .ret) : Result T) :=
    fed_same [] found hfound rfl rfl rfl rfl
  unfold deliver
  cases hbuf : s.buffer with
  | nil =>
      rw [hbuf] at hstay
      exact hstay
  | cons e buffer =>
      simp only
      by_cases hrequests : s.requestBalance.hasRequests = true
      · rw [if_pos hrequests]
        cases s.requestBalance.remove 1 with
        | none => exact Or.inl ⟨_, rfl⟩
        | some b => exact Or.inr (Or.inl ⟨_, rfl, rfl⟩)
      · rw [if_neg hrequests]
        rw [hbuf] at hstay
        exact hstay

/-- An empty buffer is filled up, unless the upstream has ended. -/
theorem fed_maybeFill (hsize : 0 < publisher.bufferSize) (hle : publisher.bufferSize < kMax)
    (h : Ahead publisher s kinds log) (k : Point) (found : Prop) :
    (fed T publisher).Meets found views kinds log (s.maybeFill publisher views k) := by
  unfold maybeFill
  cases hup : s.upstreamSubscription with
  | none => exact Or.inl ⟨_, rfl⟩
  | some p =>
      have hp := h.upstream p hup
      subst hp
      simp only
      by_cases hview : views 0 = true
      · rw [if_pos hview]
        exact Or.inr (Or.inr fun _ _ => Or.inl hview)
      · rw [if_neg hview]
        by_cases hfull : publisher.refill < s.buffer.length
        · rw [if_pos hfull]
          refine Or.inr (Or.inr fun _ _ => Or.inr (Or.inr (Or.inl fun hnil => ?_)))
          rw [show s.buffer = [] from hnil, List.length_nil] at hfull
          omega
        · rw [if_neg hfull]
          -- enough is owed already; with an empty buffer this is not nothing
          by_cases hasked : s.toFill publisher ≤ s.upstreamRequestBalance.balance
          · rw [if_pos hasked]
            refine Or.inr (Or.inr fun _ _ => ?_)
            by_cases hbuf : s.buffer = []
            · unfold toFill at hasked
              rw [hbuf, List.length_nil] at hasked
              exact Or.inr (Or.inl (by show 0 < s.upstreamRequestBalance.balance; omega))
            · exact Or.inr (Or.inr (Or.inl hbuf))
          · rw [if_neg hasked]
            refine Or.inr (Or.inr fun _ _ => Or.inr (Or.inl ?_))
            simp only [RequestBalance.balance_add]
            omega

end Fed

theorem fed_reach (hsize : 0 < publisher.bufferSize) (hlt : publisher.bufferSize < kMax)
    (st : Open (component T publisher)) (h : Open.Reach subscriptionCheck AheadRules st) :
    (fed T publisher).Stands st := by
  refine (fed T publisher).stands_reach subscriptionCheck AheadRules (fun hno => absurd rfl hno)
    ?_ ?_ ?_ ?_ st h
  · intro st c _ _ hok
    cases c with
    | subscribe =>
        simp only [component, subscribe]
        by_cases hzero : publisher.bufferSize = 0
        · rw [if_pos hzero]
          exact Or.inl ⟨_, rfl⟩
        · rw [if_neg hzero]
          exact fed_same [.ask st.kinds.length .subscribe, .call .subscribe] _ id rfl rfl rfl rfl
    | request n => exact fed_maybeDeliver _ (.call (.request n)) _ id rfl rfl rfl
    | cancel => exact hok.elim
  · intro st p i o _ _ _ _
    cases o with
    | onSubscribe =>
        simp only [component, onSubscribe]
        by_cases hagain : st.state.upstreamSubscription.isSome = true
        · rw [if_pos hagain]
          exact Or.inl ⟨_, rfl⟩
        · rw [if_neg hagain]
          exact Or.inr (Or.inl ⟨.confirmed, rfl, rfl⟩)
    | onNext e => exact fed_onNext e _
    | destroy => exact fed_release _ [.said p i .destroy] _ id rfl rfl rfl rfl
  · intro st k hreach hresumes
    have hahead : Ahead publisher st.state st.kinds st.log :=
      (ahead_reach hlt st hreach).core hresumes.isFailed
    cases k with
    | done => exact Or.inr (Or.inr fun hkept => hkept rfl)
    | subscribed => exact fed_release _ [] _ (fun hkept => hkept rfl) rfl rfl rfl rfl
    | confirmed =>
        simp only [component]
        by_cases hended : st.state.hasEnded = true
        · rw [if_pos hended]
          exact Or.inl ⟨_, rfl⟩
        · rw [if_neg hended]
          exact fed_maybeFill hsize hlt hahead .done _
    | deliver => exact fed_deliver _ fun hkept => hkept rfl
    | delivered isEnd =>
        simp only [component, delivered]
        by_cases hended : st.state.hasEnded = true
        · rw [if_pos hended]
          exact Or.inl ⟨_, rfl⟩
        · rw [if_neg hended]
          cases isEnd with
          -- after the end there is no need of a supply
          | true =>
              rw [if_pos rfl]
              have hend := (ahead_end hlt st hreach hresumes).2
              exact fed_release (s := st.state) _ [] _
                (fun _ _ => Or.inr (Or.inr (Or.inr hend))) rfl rfl rfl rfl
          | false =>
              rw [if_neg Bool.false_ne_true]
              exact fed_maybeFill hsize hlt hahead .filled _
    | filled =>
        simp only [component, filled]
        by_cases hended : st.state.hasEnded = true
        · rw [if_pos hended]
          exact Or.inl ⟨_, rfl⟩
        · rw [if_neg hended]
          by_cases hempty : st.state.buffer.isEmpty = true
          · rw [if_pos hempty]
            exact fed_same [] _ (fun hkept => hkept rfl) rfl rfl rfl rfl
          · rw [if_neg hempty]
            exact fed_same [] _ (fun hkept => hkept rfl) rfl rfl rfl rfl
  · intro st p v hok hkept hsome
    rcases hkept hsome with hview | hrest
    · refine Or.inl ?_
      dsimp only
      by_cases hp : 0 = p
      · rw [if_pos hp]
        exact hok
      · rw [if_neg hp]
        exact hview
    · exact Or.inr hrest

/-- The look-ahead is bounded, and what guards it is never needed. An event
    counts as delivered when it is taken from the buffer. -/
structure LookAhead (publisher : PrefetchingPublisher) (st : Open (component T publisher)) :
    Prop where
  /-- No balance was found too small. -/
  checked : st.turn ≠ .failed "negative request balance"
  bounded : st.turn.isFailed = false →
    st.state.buffer.length + st.state.upstreamRequestBalance.balance ≤ publisher.bufferSize
  owed : st.turn.isFailed = false →
    st.state.upstreamRequestBalance.balance + (arrived 0 st.log).length = tokens 0 st.log
  /-- The upstream sends nothing for which there is no room. -/
  room : st.turn.isFailed = false → ∀ e : StatusOr T, AheadRules st (.said 0 () (.onNext e)) →
    st.state.buffer.length < publisher.bufferSize
  demand : st.turn.isFailed = false →
    tokens 0 st.log ≤ (received st.log).length + publisher.bufferSize
  /-- The upstream is asked for more only when the buffer is down to the mark. -/
  refill : ∀ (r : (component T publisher).State × Act Call (Signal T) Unit
      (component T publisher).Point) (p n : Nat) (k : Point), Open.Runs AheadRules st r →
    r.2 = .ask p (.request n) k →
      r.1.buffer = st.state.buffer ∧ st.state.buffer.length ≤ publisher.refill
  /-- At rest a stream that owes its subscriber something is waiting for the
      upstream. -/
  flowing : st.turn = .outside → st.stack = [] → st.state.upstreamSubscription ≠ none →
    0 < st.state.requestBalance.balance → RxCppUniq.delivered st.log = false →
    st.state.buffer = [] ∧ (st.views 0 = true ∨ 0 < st.state.upstreamRequestBalance.balance)

/-- What a piece of code that is run in the state `s` neither fails with nor asks
    for. -/
structure Sound (publisher : PrefetchingPublisher) (s : PrefetchingStream T) (r : Result T) :
    Prop where
  checked : r.2 ≠ .fail "negative request balance"
  refill : ∀ p n k, r.2 = .ask p (.request n) k →
    r.1.buffer = s.buffer ∧ s.buffer.length ≤ publisher.refill

section Sound

variable {s : PrefetchingStream T}

/-- Code that asks for nothing. -/
theorem sound_of_ne {r : Result T} (hfail : r.2 ≠ .fail "negative request balance")
    (hask : ∀ p n k, r.2 ≠ .ask p (.request n) k) : Sound publisher s r :=
  ⟨hfail, fun p n k h => absurd h (hask p n k)⟩

theorem sound_ret (t : PrefetchingStream T) : Sound publisher s (t, .ret) :=
  sound_of_ne (fun h => (by cases h)) fun _ _ _ h => (by cases h)

theorem sound_goto (t : PrefetchingStream T) (k : Point) : Sound publisher s (t, .goto k) :=
  sound_of_ne (fun h => (by cases h)) fun _ _ _ h => (by cases h)

theorem sound_out (t : PrefetchingStream T) (o : Signal T) (k : Point) :
    Sound publisher s (t, .out o k) :=
  sound_of_ne (fun h => (by cases h)) fun _ _ _ h => (by cases h)

theorem sound_fail (t : PrefetchingStream T) (msg : String)
    (hmsg : msg ≠ "negative request balance") : Sound publisher s (t, .fail msg) :=
  sound_of_ne (fun h => hmsg (Act.fail.inj h)) fun _ _ _ h => (by cases h)

theorem sound_maybeDeliver (t : PrefetchingStream T) : Sound publisher s t.maybeDeliver := by
  unfold maybeDeliver
  split
  · exact sound_ret _
  · exact sound_goto _ _

theorem sound_release (t : PrefetchingStream T) : Sound publisher s t.release := by
  unfold release
  split
  · exact sound_ret _
  · exact sound_out _ _ _

/-- The one place at which the upstream is asked for events. -/
theorem sound_maybeFill (views : Nat → Bool) (k : Point) :
    Sound publisher s (s.maybeFill publisher views k) := by
  unfold maybeFill
  cases hup : s.upstreamSubscription with
  | none => exact sound_fail _ _ (by decide)
  | some q =>
      simp only
      by_cases hview : views q = true
      · rw [if_pos hview]
        exact sound_goto _ _
      · rw [if_neg hview]
        by_cases hfull : publisher.refill < s.buffer.length
        · rw [if_pos hfull]
          exact sound_goto _ _
        · rw [if_neg hfull]
          by_cases hasked : s.toFill publisher ≤ s.upstreamRequestBalance.balance
          · rw [if_pos hasked]
            exact sound_goto _ _
          · rw [if_neg hasked]
            exact ⟨fun h => (by cases h), fun _ _ _ _ => ⟨rfl, Nat.le_of_not_lt hfull⟩⟩

/-- A token is taken only where there is one. -/
theorem sound_deliver : Sound publisher s s.deliver := by
  unfold deliver
  cases s.buffer with
  | nil => exact sound_ret _
  | cons e buffer =>
      simp only
      by_cases hrequests : s.requestBalance.hasRequests = true
      · rw [if_pos hrequests]
        rw [RequestBalance.hasRequests_iff] at hrequests
        rcases RequestBalance.remove_isSome s.requestBalance hrequests with ⟨b, hb⟩
        rw [hb]
        exact sound_out _ _ _
      · rw [if_neg hrequests]
        exact sound_ret _

end Sound

/-- Every piece of code that a step may run is sound. -/
theorem sound_runs (hlt : publisher.bufferSize < kMax) (st : Open (component T publisher))
    (h : Open.Reach subscriptionCheck AheadRules st)
    (r : (component T publisher).State × Act Call (Signal T) Unit (component T publisher).Point)
    (hruns : Open.Runs AheadRules st r) : Sound publisher st.state r := by
  cases hruns with
  | call c _ ok =>
      cases c with
      | subscribe =>
          simp only [component, subscribe]
          split
          · exact sound_fail _ _ (by decide)
          · exact sound_of_ne (fun hno => (by cases hno)) fun _ _ _ hno => (by cases hno)
      | request n => exact sound_maybeDeliver _
      | cancel => exact ok.elim
  | said p i o turn kind ok =>
      have hahead : Ahead publisher st.state st.kinds st.log :=
        (ahead_reach hlt st h).core (by rw [turn]; rfl)
      have hp := hahead.only p i kind
      subst hp
      cases o with
      | onSubscribe =>
          simp only [component, onSubscribe]
          split
          · exact sound_fail _ _ (by decide)
          · exact sound_out _ _ _
      | onNext e =>
          -- there is room and the event was owed, so neither check fails
          rcases hahead.expected e ok with ⟨hfull, howes, -⟩
          rcases RequestBalance.remove_isSome _ howes with ⟨b, hb⟩
          simp only [component, onNext]
          rw [if_neg (Nat.not_le_of_lt hfull), hb]
          exact sound_maybeDeliver _
      | destroy => exact sound_release _
  | resume k _ =>
      cases k with
      | done => exact sound_ret _
      | subscribed => exact sound_release _
      | confirmed =>
          simp only [component]
          split
          · exact sound_fail _ _ (by decide)
          · exact sound_maybeFill _ _
      | deliver => exact sound_deliver
      | delivered isEnd =>
          simp only [component, delivered]
          split
          · exact sound_fail _ _ (by decide)
          · split
            · exact sound_release _
            · exact sound_maybeFill _ _
      | filled =>
          simp only [component, filled]
          split
          · exact sound_fail _ _ (by decide)
          · split
            · exact sound_ret _
            · exact sound_goto _ _

/-- In every reachable state the look-ahead is bounded. -/
theorem lookAhead_reach (publisher : PrefetchingPublisher) (hsize : 0 < publisher.bufferSize)
    (hlt : publisher.bufferSize < kMax) (st : Open (component T publisher))
    (h : Open.Reach subscriptionCheck AheadRules st) : LookAhead publisher st := by
  have hcore (hrun : st.turn.isFailed = false) : Ahead publisher st.state st.kinds st.log :=
    (ahead_reach hlt st h).core hrun
  refine
    { checked := fun hfailed => ?_
      bounded := fun hrun => (hcore hrun).room
      owed := fun hrun => ?_
      room := fun hrun e hok => ((hcore hrun).expected e hok).1
      demand := fun hrun => ?_
      refill := fun r p n k hruns hask => (sound_runs hlt st h r hruns).refill p n k hask
      flowing := fun hturn hstack hsome hpos hend => ?_ }
  · rcases h.failed _ hfailed with ⟨before, r, hbefore, -, hruns, hr⟩ | ⟨v, c, hgate⟩
    · exact (sound_runs hlt before hbefore r hruns).checked hr
    · exact absurd (subscriptionCheck_some v c _ hgate) (by decide)
  · rw [arrived_eq_heard, List.length_map]
    exact (hcore hrun).owed
  · have horder := congrArg List.length (hcore hrun).order
    rw [List.length_append] at horder
    have howed := (hcore hrun).owed
    have hroom := (hcore hrun).room
    omega
  -- at rest with demand the buffer is empty, so the upstream has been asked
  · have hloop := (looping T publisher).kept_at_rest st (looping_reach hlt st h) hturn hstack
    have hfed := (fed T publisher).kept_at_rest st (fed_reach hsize hlt st h) hturn hstack hsome
    have hbuf : st.state.buffer = [] := hloop.2.resolve_left (by omega)
    refine ⟨hbuf, ?_⟩
    rcases hfed with hview | howes | hne | hno
    · exact Or.inl hview
    · exact Or.inr howes
    · exact absurd hbuf hne
    · exact absurd (hend.symm.trans hno) Bool.false_ne_true

/-- The upstream answers from inside the request in `MaybeFill`, and the
    subscriber has asked for an infinite number of events. -/
def answered : List (Move Call Bool Unit (fun _ => Signal Nat)) :=
  [ .call .subscribe, .said 0 () .onSubscribe, .call (.request kMax), .run, .reply,
    .said 0 () (.onNext (.value 7)), .run, .reply, .said 0 () (.onNext (.value 8)), .reply, .run,
    .reply, .reply, .reply, .reply ]

theorem lookAhead_reach_answered : ∃ st : Open (component Nat twoEvents),
    Open.Reach subscriptionCheck AheadRules st ∧ received st.log = [.value 7, .value 8] ∧
      LookAhead twoEvents st := by
  rcases Open.exists_reach_of_play subscriptionCheck AheadRules answered
    (fun (st : Open (component Nat twoEvents)) => decide (received st.log = [.value 7, .value 8]))
    (by decide +kernel) with ⟨st, hst, htest⟩
  rw [decide_eq_true_eq] at htest
  exact ⟨st, hst, htest, lookAhead_reach twoEvents (by decide) (by decide) st hst⟩

end PrefetchingStream

end RxCppUniq
