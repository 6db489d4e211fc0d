import RxCppUniq.Reactive.FlatMap
import RxCppUniq.Theory.Frames

/-!
# Continuations of a Destroyed FlatMap

The lambdas a `FlatMapStream` subscribes to a continuation capture the stream,
which the base destroys. The destructor cancels the continuation whose
subscription it knows. A continuation that is generated is deleted by that
call. An asynchronous one is not: tasks that were scheduled before still run,
and one that has not confirmed yet is not known to the destructor at all.

The rules have a switch for the condition under which no callback is run any
more: when the base destroys the stream, every continuation that has not ended
is the one the stream knows, and it is generated, or nothing that was
requested of it is on its way.

## Main definitions

* `FlatMapStream.reaches`: A call that runs one of the two lambdas.
* `FlatMapStream.Quiescent`: The condition.
* `FlatMapStream.LifetimeRules`: What the partners may do.
* `FlatMapStream.Unreached`: No callback is run on a destroyed stream.

## Theorems

* `FlatMapStream.unreached_reach`: Under the condition there is none, and every
  active continuation has been cancelled once.
* `FlatMapStream.reached_unconfirmed`: Without it there is.
-/

namespace RxCppUniq

open Theory

namespace FlatMapStream

variable {T R : Type}

/-- A call that runs a lambda with an event or a subscription. -/
@[simp] def reaches : Entry R (Option T) (Published T R) → Bool
  | .call _ => false
  | .out _ => false
  | .ask _ _ => false
  | .said _ none _ => false
  | .said _ (some _) s => match s with
    | .onSubscribe => true
    | .onNext _ => true
    | .destroy => false

section Rules

variable (generated : T → Bool) (careful : Bool)

/-- A continuation does not call any more once it has been cancelled: it is
    generated, or nothing that was requested of it is on its way. -/
def Drained (p : Nat) (v : T) (log : Log R (Option T) (Published T R)) : Prop :=
  generated v = true ∨ (arrived p log).length = tokens p log

/-- The stream with number `p` is the base, or a continuation that has ended,
    or the one that is known, which has not ended and is idle. -/
def Settles (st : Open (component T R)) (p : Nat) : Option T → Prop
  | none => True
  | some v => ended (arrived p st.log) = false → st.state.contSubscription = some p ∧
      confirmed p st.log = true ∧ st.views p = false ∧ Drained generated p v st.log

/-- The stream may be destroyed. -/
def Quiescent (st : Open (component T R)) : Prop :=
  ∀ f ∈ st.kinds.zipIdx, Settles generated st f.2 f.1

/-- The rules for the partners of a `FlatMapStream`. The base and the
    continuations have strict flow control; a continuation that is generated
    is silent when it has been cancelled. The subscriber may cancel, but does
    not call while the stream is being destroyed: the `Cancel` of a
    continuation calls nobody. Under the condition that is switched on, the
    base destroys the stream in a quiescent state. -/
def LifetimeRules (st : Open (component T R)) :
    Move Call Bool (Option T) (fun i => Signal (Published T R i)) → Prop
  | .call c => Protocol.subscriber st.log c ∧ released 0 st.log = false
  | .said p none s => Protocol.stream p st.log s ∧
      (careful = true → s.isDestroy = true → Quiescent generated st)
  | .said p (some v) s => Protocol.stream p st.log s ∧
      (generated v = true → s.isDestroy = false → cancels p st.log = 0)
  | .reply => True
  | .view _ v => v = true
  | .run => True

instance (st : Open (component T R)) (p : Nat) (i : Option T) :
    Decidable (Settles generated st p i) :=
  match i with
  | none => inferInstanceAs (Decidable True)
  | some _ => inferInstanceAs (Decidable (_ → _ ∧ _ ∧ _ ∧ (_ ∨ _)))

instance (st : Open (component T R)) : Decidable (Quiescent generated st) :=
  inferInstanceAs (Decidable (∀ f ∈ st.kinds.zipIdx, _))

instance (st : Open (component T R))
    (m : Move Call Bool (Option T) (fun i => Signal (Published T R i))) :
    Decidable (LifetimeRules generated careful st m) :=
  match m with
  | .call _ => inferInstanceAs (Decidable (_ ∧ _))
  | .said _ none _ => inferInstanceAs (Decidable (_ ∧ _))
  | .said _ (some _) _ => inferInstanceAs (Decidable (_ ∧ _))
  | .reply => inferInstanceAs (Decidable True)
  | .view _ _ => inferInstanceAs (Decidable (_ = _))
  | .run => inferInstanceAs (Decidable True)

end Rules

/-- No callback is run on a destroyed stream: every call that runs one was
    made before the base had destroyed it. -/
def Silenced (log : Log R (Option T) (Published T R)) : Prop :=
  ∀ newer n older, log = newer ++ n :: older → reaches n = true → released 0 older = false

theorem silenced_nil : Silenced ([] : Log R (Option T) (Published T R)) :=
  fun newer n older h => absurd h (List.append_ne_nil_of_right_ne_nil newer
    (List.cons_ne_nil n older)).symm

theorem silenced_cons (n : Entry R (Option T) (Published T R))
    (log : Log R (Option T) (Published T R)) (h : Silenced log)
    (hn : reaches n = true → released 0 log = false) : Silenced (n :: log) := by
  intro newer m older heq hm
  cases newer with
  | nil =>
      rcases List.cons.inj heq with ⟨rfl, rfl⟩
      exact hn hm
  | cons x newer => exact h newer m older (List.cons.inj heq).2 hm

/-- What a continuation has come to when the stream is destroyed: it has
    ended, or it has been cancelled and does not call any more. -/
def Over (generated : T → Bool) (p : Nat) (v : T) (log : Log R (Option T) (Published T R)) :
    Prop :=
  ended (arrived p log) = true ∨
    cancels p log = 1 ∧ confirmed p log = true ∧ Drained generated p v log

/-- What is known of the streams and of the calls that were made. -/
structure Linked (generated : T → Bool) (s : FlatMapStream) (kinds : List (Option T))
    (log : Log R (Option T) (Published T R)) : Prop where
  fresh : log = [] → kinds = []
  head : ∀ i, kinds[0]? = some i → i = none
  base : ∀ p, kinds[p]? = some none → p = 0
  asked : ∀ p, s.baseSubscription = some p → p = 0
  known : ∀ p, s.contSubscription = some p → p ≠ 0
  heard : ∀ p, p ≠ 0 → ended (arrived p log) = true → confirmed p log = true
  silent : Silenced log
  once : ∀ p, p ≠ 0 → cancels p log ≤ 1
  calm : released 0 log = false → ∀ p, p ≠ 0 → cancels p log = 0
  past : released 0 log = true → ∀ p v, kinds[p]? = some (some v) → Over generated p v log

/-- The invariant. After a failed check what has been called is still known. -/
def links (T R : Type) (generated : T → Bool) : Open.Spec (component T R) where
  Core s kinds log := Linked generated s kinds log
  Frame _ _ _ _ := True
  Safe kinds log := Silenced log ∧ ∀ p v, kinds[p]? = some (some v) → cancels p log ≤ 1

section Keeps

variable {generated : T → Bool} {s t : FlatMapStream} {kinds : List (Option T)}
  {before log : Log R (Option T) (Published T R)}

theorem links_keeps {r : Result T R} (hsilent : Silenced log)
    (honce : ∀ p v, kinds[p]? = some (some v) → cancels p log ≤ 1)
    (h : (∃ msg, r.2 = .fail msg) ∨
      Linked generated r.1 (r.2.kinds kinds) (r.2.log kinds log)) :
    (links T R generated).Keeps s kinds before log r :=
  ⟨⟨hsilent, honce⟩, h, fun _ _ => trivial, fun _ _ _ => trivial⟩

/-- The base is not a continuation. -/
theorem Linked.ne_zero (h : Linked generated s kinds log) (p : Nat) (v : T)
    (hkind : kinds[p]? = some (some v)) : p ≠ 0 := by
  intro hp
  rw [hp] at hkind
  exact absurd (h.head _ hkind) (Option.some_ne_none v)

theorem Linked.cancelled_once (h : Linked generated s kinds log) (p : Nat) (v : T)
    (hkind : kinds[p]? = some (some v)) : cancels p log ≤ 1 :=
  h.once p (h.ne_zero p v hkind)

/-- What is known where a piece of code stops is what it owes. -/
theorem Linked.keeps {r : Result T R} (hlog : Linked generated t kinds log)
    (h : (∃ msg, r.2 = .fail msg) ∨
      Linked generated r.1 (r.2.kinds kinds) (r.2.log kinds log)) :
    (links T R generated).Keeps s kinds before log r :=
  links_keeps hlog.silent hlog.cancelled_once h

/-- An entry that no continuation has a part in, or only as one that is
    asked. -/
theorem Linked.note (h : Linked generated s kinds log) (n : Entry R (Option T) (Published T R))
    (hreaches : reaches n = false) (hreleases : n.releases 0 = false)
    (hkeep : ∀ p, p ≠ 0 → n.arrived p = none ∧ n.confirms p = false ∧ Entry.cancels p n = 0)
    (hasks : released 0 log = true → ∀ p, p ≠ 0 → n.tokens p = 0)
    (hbase : ∀ p, t.baseSubscription = some p → p = 0)
    (hcont : ∀ p, t.contSubscription = some p → p ≠ 0) :
    Linked generated t kinds (n :: log) := by
  have hreleased : released 0 (n :: log) = released 0 log := by
    rw [released_cons, hreleases, Bool.false_or]
  have harrived (p : Nat) (hp : p ≠ 0) : arrived p (n :: log) = arrived p log := by
    rw [arrived_cons, (hkeep p hp).1, Option.toList_none, List.append_nil]
  have hconfirmed (p : Nat) (hp : p ≠ 0) : confirmed p (n :: log) = confirmed p log := by
    rw [confirmed_cons, (hkeep p hp).2.1, Bool.false_or]
  have hcancels (p : Nat) (hp : p ≠ 0) : cancels p (n :: log) = cancels p log := by
    rw [cancels_cons, (hkeep p hp).2.2, Nat.add_zero]
  refine
    { fresh := fun hnil => (by cases hnil)
      head := h.head
      base := h.base
      asked := hbase
      known := hcont
      heard := fun p hp hend => ?_
      silent := silenced_cons n log h.silent
        fun hyes => absurd (hreaches.symm.trans hyes) Bool.false_ne_true
      once := fun p hp => ?_
      calm := fun hno p hp => ?_
      past := fun hyes p v hkind => ?_ }
  · rw [hconfirmed p hp]
    exact h.heard p hp (harrived p hp ▸ hend)
  · rw [hcancels p hp]
    exact h.once p hp
  · rw [hcancels p hp]
    exact h.calm (hreleased ▸ hno) p hp
  · rw [hreleased] at hyes
    have hp := h.ne_zero p v hkind
    have htokens : tokens p (n :: log) = tokens p log := by
      rw [tokens_cons, hasks hyes p hp, Nat.add_zero]
    rw [Over, Drained, harrived p hp, hcancels p hp, hconfirmed p hp, htokens]
    exact h.past hyes p v hkind

/-- The subscriber is called. -/
theorem Linked.out (h : Linked generated s kinds log) (o : Signal R) :
    Linked generated s kinds (.out o :: log) :=
  h.note (.out o) rfl rfl (fun _ _ => ⟨rfl, rfl, rfl⟩) (fun _ _ _ => rfl) h.asked h.known

/-- The stream is another one, with the same subscriptions. -/
theorem Linked.same (h : Linked generated s kinds log)
    (hbase : t.baseSubscription = s.baseSubscription)
    (hcont : t.contSubscription = s.contSubscription) : Linked generated t kinds log :=
  { h with asked := hbase ▸ h.asked, known := hcont ▸ h.known }

/-- The base is called. -/
theorem links_askBase (h : Linked generated t kinds log) (c : Call) :
    (links T R generated).Keeps s kinds before log (t.askBase c) := by
  unfold askBase
  split
  · exact h.keeps (Or.inl ⟨_, rfl⟩)
  · next p hp =>
      rw [h.asked p hp]
      refine h.keeps (Or.inr (h.note (.ask 0 c) rfl rfl (fun q hq => ⟨rfl, rfl, ?_⟩) ?_ h.asked
        h.known))
      · cases c with
        | subscribe => rfl
        | request n => rfl
        | cancel => exact if_neg (Ne.symm hq)
      · exact fun _ q hq => if_neg (Ne.symm hq)

/-- A continuation is asked only as long as the stream has not been
    destroyed. -/
theorem links_request (h : Linked generated t kinds log) (hlive : released 0 log = false)
    (n : Nat) : (links T R generated).Keeps s kinds before log (t.request n) := by
  unfold request
  dsimp only
  split
  · next p hp =>
      have hknown : ∀ q, t.contSubscription = some q → q ≠ 0 := h.known
      split
      · refine h.keeps (Or.inr (h.note (.ask p (.request _)) rfl rfl (fun q hq => ⟨rfl, rfl, rfl⟩)
          (fun hyes => ?_) h.asked h.known))
        exact absurd (hlive.symm.trans hyes) Bool.false_ne_true
      · exact h.keeps (Or.inr (h.same rfl rfl))
  · exact links_askBase (t := { t with requestBalance := t.requestBalance.add n })
      (h.same rfl rfl) (.request 1)

/-- A new stream, which nothing has reached yet. -/
theorem Linked.make (h : Linked generated s kinds log) (i : Option T)
    (hlive : released 0 log = false) (hhead : kinds = [] → i = none)
    (hbase : i = none → kinds = []) :
    Linked generated s (kinds ++ [i]) (.ask kinds.length .subscribe :: log) := by
  have hnote := h.note (t := s) (.ask kinds.length .subscribe) rfl rfl
    (fun _ _ => ⟨rfl, rfl, rfl⟩) (fun _ _ _ => ite_self _) h.asked h.known
  -- the new stream comes last, and only the first one is the base
  refine
    { asked := hnote.asked
      known := hnote.known
      heard := hnote.heard
      silent := hnote.silent
      once := hnote.once
      calm := hnote.calm
      fresh := fun hnil => (by cases hnil)
      head := fun j hj => ?_
      base := fun p hp => ?_
      past := fun hyes => absurd (hlive.symm.trans hyes) Bool.false_ne_true }
  · cases kinds with
    | nil => rw [← Option.some.inj hj, hhead rfl]
    | cons k kinds => exact h.head j hj
  · rcases Nat.lt_or_ge p kinds.length with hlt | hge
    · rw [List.getElem?_append_left hlt] at hp
      exact h.base p hp
    · rw [List.getElem?_append_right hge] at hp
      have hlt := (List.getElem?_eq_some_iff.mp hp).1
      rw [List.length_singleton] at hlt
      have hzero : p - kinds.length = 0 := by omega
      rw [hzero] at hp
      rw [hbase (Option.some.inj hp), List.length_nil] at hlt
      omega

/-- A continuation runs one of the lambdas, which it does only before the
    stream is destroyed. -/
theorem Linked.reached (h : Linked generated s kinds log) (p : Nat) (v : T) (o : Signal R)
    (hlive : released 0 log = false) (hp : p ≠ 0)
    (hconf : o ≠ .onSubscribe → confirmed p log = true) :
    Linked generated s kinds (.said p (some v) o :: log) := by
  have hreleased : released 0 (.said p (some v) o :: log) = false := by
    rw [released_cons, hlive, Bool.or_false]
    cases o with
    | onSubscribe => rfl
    | onNext e => rfl
    | destroy => exact beq_eq_false_iff_ne.mpr hp
  refine
    { fresh := fun hnil => (by cases hnil)
      head := h.head
      base := h.base
      asked := h.asked
      known := h.known
      heard := fun q hq hend => ?_
      silent := silenced_cons _ log h.silent fun _ => hlive
      once := h.once
      calm := fun _ => h.calm hlive
      past := fun hyes => absurd (hreleased.symm.trans hyes) Bool.false_ne_true }
  cases o with
  | onSubscribe =>
      rw [arrived_cons, Entry.arrived, Signal.event?, Option.map_none, ite_self, Option.toList_none,
        List.append_nil] at hend
      rw [confirmed_cons, h.heard q hq hend, Bool.or_true]
  | destroy =>
      rw [arrived_cons, Entry.arrived, Signal.event?, Option.map_none, ite_self, Option.toList_none,
        List.append_nil] at hend
      rw [confirmed_cons, h.heard q hq hend, Bool.or_true]
  | onNext e =>
      rw [confirmed_cons]
      by_cases hqp : p = q
      · rw [← hqp, hconf (fun hno => (by cases hno)), Bool.or_true]
      · rw [arrived_cons, Entry.arrived, if_neg hqp, Option.toList_none, List.append_nil] at hend
        rw [h.heard q hq hend, Bool.or_true]

theorem links_send (h : Linked generated t kinds log) (event : StatusOr R) (k : Point) :
    (links T R generated).Keeps s kinds before log (t.send event k) :=
  h.keeps (Or.inr (h.out (.onNext event)))

theorem links_onSubscribeCont (h : Linked generated t kinds log) (hlive : released 0 log = false)
    (p : Nat) (hp : p ≠ 0) :
    (links T R generated).Keeps s kinds before log (t.onSubscribeCont p) := by
  have hknows : Linked generated
      { t with contSubscription := some p, contRequested := .zero } kinds log :=
    { h with known := fun q hq => Option.some.inj hq ▸ hp }
  unfold onSubscribeCont
  by_cases hended : t.hasEnded = true
  · rw [if_pos hended]
    exact h.keeps (Or.inl ⟨_, rfl⟩)
  · rw [if_neg hended]
    by_cases hrequests : t.requestBalance.hasRequests = true
    · rw [if_pos hrequests]
      exact links_request hknows hlive 0
    · rw [if_neg hrequests]
      exact h.keeps (Or.inr hknows)

theorem links_onNextCont (h : Linked generated t kinds log) (hlive : released 0 log = false)
    (event : StatusOr R) :
    (links T R generated).Keeps s kinds before log (t.onNextCont event) := by
  unfold onNextCont
  by_cases hended : t.hasEnded = true
  · rw [if_pos hended]
    exact h.keeps (Or.inl ⟨_, rfl⟩)
  · rw [if_neg hended]
    by_cases hval : (!event.isEnd) = true
    · rw [if_pos hval]
      cases t.requestBalance.remove 1 with
      | none => exact h.keeps (Or.inl ⟨_, rfl⟩)
      | some b =>
          simp only
          cases t.contRequested.remove 1 with
          | none => exact h.keeps (Or.inl ⟨_, rfl⟩)
          | some c =>
              exact links_send (t := { t with requestBalance := b, contRequested := c })
                (h.same rfl rfl) event .done
    · rw [if_neg hval]
      by_cases hdone : event.isDone = true
      · rw [if_pos hdone]
        -- with the Done the stream forgets the continuation
        have hforgets : Linked generated { t with contSubscription := none } kinds log :=
          { h with known := fun q hq => (by cases hq) }
        by_cases hrequests : t.requestBalance.hasRequests = true
        · rw [if_pos hrequests]
          exact links_request hforgets hlive 0
        · rw [if_neg hrequests]
          exact h.keeps (Or.inr hforgets)
      · rw [if_neg hdone]
        exact links_send h event .terminate

/-- A call of the base, apart from the one that destroys the stream. -/
theorem Linked.said_base (h : Linked generated s kinds log) (o : Signal T)
    (ho : o.isDestroy = false) : Linked generated s kinds (.said 0 none o :: log) := by
  refine h.note (.said 0 none o) rfl ?_ (fun q hq => ⟨if_neg (Ne.symm hq), ?_, rfl⟩)
    (fun _ _ _ => rfl) h.asked h.known
  · cases o with
    | onSubscribe => rfl
    | onNext e => rfl
    | destroy => cases ho
  · cases o with
    | onSubscribe => exact beq_eq_false_iff_ne.mpr (Ne.symm hq)
    | onNext e => rfl
    | destroy => rfl

/-- The base destroys the stream, and the continuation that is known is
    cancelled. -/
theorem links_destructor (st : Open (component T R))
    (h : Linked generated st.state st.kinds st.log) (hlive : released 0 st.log = false)
    (hquiescent : Quiescent generated st) :
    (links T R generated).Keeps st.state st.kinds st.log (.said 0 none .destroy :: st.log)
      (st.state.destructor st.views) := by
  have hsettles (p : Nat) (v : T) (hkind : st.kinds[p]? = some (some v)) :
      ended (arrived p st.log) = true ∨ st.state.contSubscription = some p ∧
        confirmed p st.log = true ∧ st.views p = false ∧ Drained generated p v st.log := by
    have hmem : (some v, p) ∈ st.kinds.zipIdx := by
      rw [List.mk_mem_zipIdx_iff_getElem?]
      exact hkind
    cases hend : ended (arrived p st.log) with
    | true => exact Or.inl rfl
    | false => exact Or.inr (hquiescent _ hmem hend)
  have hsilent : Silenced (.said 0 none .destroy :: st.log) :=
    silenced_cons _ _ h.silent fun hyes => (by cases hyes)
  -- the log after the call and one more entry, which cancels what is left
  have hover (n : Entry R (Option T) (Published T R)) (t : FlatMapStream)
      (hreaches : reaches n = false)
      (hkeep : ∀ p, n.arrived p = none ∧ n.confirms p = false ∧ n.tokens p = 0)
      (hcancels : ∀ p, Entry.cancels p n ≤ 1)
      (hbase : ∀ p, t.baseSubscription = some p → p = 0)
      (hcont : ∀ p, t.contSubscription = some p → p ≠ 0)
      (hleft : ∀ p v, st.kinds[p]? = some (some v) →
        ended (arrived p st.log) = true ∨ confirmed p st.log = true ∧
          Drained generated p v st.log ∧ Entry.cancels p n = 1) :
      Linked generated t st.kinds (n :: .said 0 none .destroy :: st.log) := by
    have harrived (p : Nat) : arrived p (n :: .said 0 none .destroy :: st.log) =
        arrived p st.log := by
      rw [arrived_cons, (hkeep p).1, arrived_cons, Entry.arrived, Signal.event?, Option.map_none,
        ite_self, Option.toList_none, List.append_nil, List.append_nil]
    have hconfirmed (p : Nat) : confirmed p (n :: .said 0 none .destroy :: st.log) =
        confirmed p st.log := by
      rw [confirmed_cons, (hkeep p).2.1, Bool.false_or]
      rfl
    have htokens (p : Nat) : tokens p (n :: .said 0 none .destroy :: st.log) =
        tokens p st.log := by
      rw [tokens_cons, (hkeep p).2.2]
      rfl
    have hsum (p : Nat) (hp : p ≠ 0) : cancels p (n :: .said 0 none .destroy :: st.log) =
        Entry.cancels p n := by
      rw [cancels_cons, cancels_cons, h.calm hlive p hp]
      exact Nat.zero_add _
    have hreleased : released 0 (n :: .said 0 none .destroy :: st.log) = true := by
      simp only [released_cons, Entry.releases, beq_self_eq_true, Bool.true_or, Bool.or_true]
    refine
      { fresh := fun hnil => (by cases hnil)
        head := h.head
        base := h.base
        asked := hbase
        known := hcont
        heard := fun p hp hend => ?_
        silent := silenced_cons _ _ hsilent
          fun hyes => absurd (hreaches.symm.trans hyes) Bool.false_ne_true
        once := fun p hp => ?_
        calm := fun hno => absurd (hno.symm.trans hreleased) Bool.false_ne_true
        past := fun _ p v hkind => ?_ }
    · rw [hconfirmed]
      exact h.heard p hp (harrived p ▸ hend)
    · rw [hsum p hp]
      exact hcancels p
    · rw [Over, Drained, harrived, hconfirmed, htokens, hsum p (h.ne_zero p v hkind)]
      rcases hleft p v hkind with hend | ⟨hconf, hidle, hone⟩
      · exact Or.inl hend
      · exact Or.inr ⟨hone, hconf, hidle⟩
  have hended (t : FlatMapStream) (hbase : ∀ p, t.baseSubscription = some p → p = 0)
      (hcont : ∀ p, t.contSubscription = some p → p ≠ 0)
      (hall : ∀ p v, st.kinds[p]? = some (some v) → ended (arrived p st.log) = true) :
      Linked generated t st.kinds (.out .destroy :: .said 0 none .destroy :: st.log) :=
    hover (.out .destroy) t rfl (fun _ => ⟨rfl, rfl, rfl⟩) (fun _ => Nat.zero_le 1) hbase hcont
      fun p v hkind => Or.inl (hall p v hkind)
  unfold destructor
  cases hknown : st.state.contSubscription with
  | none =>
      refine links_keeps hsilent h.cancelled_once (Or.inr ?_)
      refine hended _ h.asked
        (fun q hq => absurd (hknown.symm.trans hq) (Option.some_ne_none q).symm)
        fun p v hkind => ?_
      rcases hsettles p v hkind with hend | ⟨hsome, -⟩
      · exact hend
      · exact absurd (hknown.symm.trans hsome) (Option.some_ne_none p).symm
  | some p =>
      simp only
      by_cases hview : st.views p = true
      · rw [if_pos hview]
        refine links_keeps hsilent h.cancelled_once (Or.inr ?_)
        refine hended _ h.asked h.known fun q v hkind => ?_
        rcases hsettles q v hkind with hend | ⟨hsome, -, hopen, -⟩
        · exact hend
        · rw [Option.some.inj (hsome.symm.trans hknown)] at hopen
          exact absurd (hopen.symm.trans hview) Bool.false_ne_true
      · rw [if_neg hview]
        refine links_keeps hsilent h.cancelled_once (Or.inr ?_)
        refine hover (.ask p .cancel) st.state rfl (fun q => ⟨rfl, rfl, ite_self _⟩)
          (fun q => ?_) h.asked h.known fun q v hkind => ?_
        · rw [Entry.cancels]
          split <;> omega
        · rcases hsettles q v hkind with hend | ⟨hsome, hconf, -, hidle⟩
          · exact Or.inl hend
          · exact Or.inr ⟨hconf, hidle,
              if_pos (Option.some.inj (hknown.symm.trans hsome))⟩

end Keeps

theorem Linked.init (generated : T → Bool) :
    Linked generated {} [] ([] : Log R (Option T) (Published T R)) where
  fresh _ := rfl
  head _ hi := by cases hi
  base _ hp := by cases hp
  asked _ hp := by cases hp
  known _ hp := by cases hp
  heard _ _ hend := by cases hend
  silent := silenced_nil
  once _ _ := Nat.zero_le 1
  calm _ _ _ := rfl
  past hyes := by cases hyes

/-- A continuation calls only as long as the stream has not been destroyed. -/
theorem Linked.alive {generated : T → Bool} {st : Open (component T R)}
    (h : Linked generated st.state st.kinds st.log) (p : Nat) (v : T) (o : Signal R)
    (hkind : st.kinds[p]? = some (some v)) (ho : o.isDestroy = false)
    (hok : Protocol.stream p st.log o ∧
      (generated v = true → o.isDestroy = false → cancels p st.log = 0)) :
    released 0 st.log = false := by
  by_contra hgone
  rw [Bool.not_eq_false] at hgone
  cases o with
  | destroy => cases ho
  | onSubscribe =>
      rcases h.past hgone p v hkind with hend | ⟨-, hconf, -⟩
      · have hconf := h.heard p (h.ne_zero p v hkind) hend
        exact absurd (hok.1.1.symm.trans hconf) Bool.false_ne_true
      · exact absurd (hok.1.1.symm.trans hconf) Bool.false_ne_true
  | onNext e =>
      have hstrict := (strict_append _ _ _).mp hok.1.2.2
      rcases h.past hgone p v hkind with hend | ⟨hone, -, hgen | hnone⟩
      · exact absurd (((ended_eq_false _).mpr hstrict.2).symm.trans hend) Bool.false_ne_true
      · have hzero := hok.2 hgen rfl
        omega
      · omega

theorem links_said {generated : T → Bool} (st : Open (component T R)) (p : Nat) (i : Option T)
    (o : Signal (Published T R i)) (hok : LifetimeRules generated true st (.said p i o))
    (hkind : st.kinds[p]? = some i) (h : Linked generated st.state st.kinds st.log) :
    (links T R generated).Keeps st.state st.kinds st.log (.said p i o :: st.log)
      ((component T R).said st.views st.state p i o) := by
  cases i with
  | none =>
      have hp := h.base p hkind
      subst hp
      cases o with
      | onSubscribe =>
          have hsaid := h.said_base .onSubscribe rfl
          have hbase : Linked generated { st.state with baseSubscription := some 0 } st.kinds
              (.said 0 none .onSubscribe :: st.log) :=
            { hsaid with asked := fun q hq => (Option.some.inj hq).symm }
          exact hsaid.keeps (Or.inr (hbase.out .onSubscribe))
      | onNext e =>
          have hsaid := h.said_base (.onNext e) rfl
          cases e with
          | status status hs => exact links_send hsaid _ .done
          | value v =>
              simp only [component, onNext]
              by_cases hbusy : st.state.contSubscription.isSome = true
              · rw [if_pos hbusy]
                exact links_send hsaid _ .terminate
              · rw [if_neg hbusy]
                refine hsaid.keeps (Or.inr (hsaid.make (some v) hok.1.2.1 (fun hnil => ?_)
                  fun hno => (by cases hno)))
                rw [hnil] at hkind
                cases hkind
      | destroy => exact links_destructor st h hok.1 (hok.2 rfl rfl)
  | some v =>
      have hp := h.ne_zero p v hkind
      cases o with
      | onSubscribe =>
          -- a continuation runs its lambdas only before the stream is destroyed
          have hlive := h.alive p v .onSubscribe hkind rfl hok
          exact links_onSubscribeCont (h.reached p v .onSubscribe hlive hp fun hne =>
            absurd rfl hne) hlive p hp
      | onNext e =>
          have hlive := h.alive p v (.onNext e) hkind rfl hok
          exact links_onNextCont (h.reached p v (.onNext e) hlive hp fun _ => hok.1.1) hlive e
      | destroy =>
          have hnote := h.note (t := st.state) (.said p (some v) .destroy) rfl
            (beq_eq_false_iff_ne.mpr hp) (fun q _ => ⟨ite_self _, rfl, rfl⟩) (fun _ _ _ => rfl)
            h.asked h.known
          exact hnote.keeps (Or.inr hnote)

theorem links_reach {generated : T → Bool} (st : Open (component T R))
    (h : Open.Reach subscriptionCheck (LifetimeRules generated true) st) :
    (links T R generated).Holds st := by
  refine (links T R generated).holds_reach subscriptionCheck (LifetimeRules generated true)
    (Linked.init generated) ?_ ?_ ?_ st h
  · intro st c _ hok _ hlinked
    have hcalled : Linked generated st.state st.kinds (.call c :: st.log) :=
      hlinked.note (t := st.state) (.call c) rfl rfl (fun _ _ => ⟨rfl, rfl, rfl⟩)
        (fun _ _ _ => rfl) hlinked.asked hlinked.known
    cases c with
    | subscribe =>
        have hnil := hlinked.fresh (List.isEmpty_iff.mp hok.1)
        exact hcalled.keeps (Or.inr (hcalled.make none hok.2 (fun _ => rfl) fun _ => hnil))
    | request n => exact links_request hcalled hok.2 n
    | cancel => exact links_askBase hcalled .cancel
  · intro st p i o _ hok hkind hlinked
    exact links_said st p i o hok hkind hlinked
  · intro st k _ _ hlinked _
    have hlinked' : Linked generated st.state st.kinds st.log := hlinked
    cases k with
    | done => exact hlinked'.keeps (Or.inr hlinked')
    -- an error cancels the base, if the stream is still there
    | terminate =>
        simp only [component]
        by_cases hended : st.state.hasEnded = true
        · rw [if_pos hended]
          exact hlinked'.keeps (Or.inl ⟨_, rfl⟩)
        · rw [if_neg hended]
          exact links_askBase hlinked' .cancel
    | destroying =>
        have hdead : Linked generated { st.state with hasEnded := true } st.kinds st.log :=
          hlinked'.same rfl rfl
        exact hlinked'.keeps (Or.inr (hdead.out .destroy))

/-- No callback is run on a destroyed stream, and its continuations have been
    cancelled. -/
structure Unreached (st : Open (component T R)) : Prop where
  silent : Silenced st.log
  once : ∀ p v, st.kinds[p]? = some (some v) → cancels p st.log ≤ 1
  /-- Once the stream is destroyed, a continuation that has not ended has been
      cancelled. -/
  cancelled : st.turn.isFailed = false → released 0 st.log = true →
    ∀ p v, st.kinds[p]? = some (some v) → ended (arrived p st.log) = false →
      cancels p st.log = 1

/-- If the base destroys the stream only in quiescent states, no callback is
    run on the destroyed stream. -/
theorem unreached_reach (generated : T → Bool) (st : Open (component T R))
    (h : Open.Reach subscriptionCheck (LifetimeRules generated true) st) : Unreached st := by
  rcases links_reach st h with ⟨hrunning, hlinked, -⟩ | ⟨hfailed, hsilent, honce⟩
  · have hl : Linked generated st.state st.kinds st.log := hlinked
    refine ⟨hl.silent, hl.cancelled_once, fun _ hgone p v hkind hopen => ?_⟩
    rcases hl.past hgone p v hkind with hend | ⟨hone, -⟩
    · exact absurd (hopen.symm.trans hend) Bool.false_ne_true
    · exact hone
  · refine ⟨hsilent, honce, fun hrunning => ?_⟩
    exact absurd (hrunning.symm.trans hfailed) Bool.false_ne_true

/-- A generated continuation delivers a value, and the subscriber cancels in
    its `OnNext`. -/
def cancelInside : List (Move Call Bool (Option Nat) (fun i => Signal (Published Nat Nat i))) :=
  [ .call .subscribe, .said 0 none .onSubscribe, .call (.request 1),
    .said 0 none (.onNext (.value 7)), .said 1 (some 7) .onSubscribe,
    .said 1 (some 7) (.onNext (.value 9)), .call .cancel, .said 0 none .destroy,
    .said 1 (some 7) .destroy, .reply, .reply ]

theorem unreached_reach_inside : ∃ st : Open (component Nat Nat),
    Open.Reach subscriptionCheck (LifetimeRules (fun _ => true) true) st ∧
      st.state.hasEnded = true ∧ cancels 1 st.log = 1 ∧ Unreached st := by
  rcases Open.exists_reach_of_play subscriptionCheck (LifetimeRules (fun _ => true) true)
    cancelInside (fun (st : Open (component Nat Nat)) => st.state.hasEnded && cancels 1 st.log == 1)
    (by decide +kernel) with ⟨st, hst, htest⟩
  rw [Bool.and_eq_true, beq_iff_eq] at htest
  exact ⟨st, hst, htest.1, htest.2, unreached_reach (fun _ => true) st hst⟩

/-- An asynchronous continuation has been subscribed and confirms only after
    the subscriber has cancelled and the base has destroyed the stream. -/
def confirmedLate : List (Move Call Bool (Option Nat) (fun i => Signal (Published Nat Nat i))) :=
  [ .call .subscribe, .said 0 none .onSubscribe, .call (.request 1),
    .said 0 none (.onNext (.value 7)), .reply, .reply, .reply, .reply, .call .cancel,
    .said 0 none .destroy, .reply, .reply, .said 1 (some 7) .onSubscribe ]

/-- Without the condition a callback is run on the destroyed stream. -/
theorem reached_unconfirmed : ∃ st : Open (component Nat Nat),
    Open.Reach subscriptionCheck (LifetimeRules (fun _ => false) false) st ∧
      st.turn = .failed useAfterFree ∧ ¬ Unreached st := by
  rcases Open.exists_reach_of_play subscriptionCheck (LifetimeRules (fun _ => false) false)
    confirmedLate (fun (st : Open (component Nat Nat)) =>
      (match st.turn with
        | .failed msg => msg == useAfterFree
        | _ => false) &&
      match st.log with
        | n :: older => reaches n && released 0 older
        | [] => false) (by decide +kernel) with ⟨st, hst, htest⟩
  rw [Bool.and_eq_true] at htest
  rcases htest with ⟨hturn, hlog⟩
  refine ⟨st, hst, ?_, fun hunreached => ?_⟩
  · split at hturn
    · next msg heq => rw [heq, beq_iff_eq.mp hturn]
    · cases hturn
  · split at hlog
    · next n older heq =>
        rw [Bool.and_eq_true] at hlog
        have hlive := hunreached.silent [] n older heq hlog.1
        exact absurd (hlive.symm.trans hlog.2) Bool.false_ne_true
    · cases hlog

end FlatMapStream

end RxCppUniq
