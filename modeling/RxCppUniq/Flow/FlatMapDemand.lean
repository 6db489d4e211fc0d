import RxCppUniq.Flow.Metered
import RxCppUniq.Reactive.FlatMap

/-!
# Demand in FlatMap

`FlatMapStream` between a base stream and continuations with strict flow
control, which answer when they like, and a subscriber that only requests.
A request that comes while no continuation has confirmed its subscription
goes to the base. If the base still owes an answer to an earlier one, or the
continuation of its last answer has not confirmed, the base ends up with a
token for which there is no room.

The rules have two switches. A careful subscriber does not request in such a
window. A bounded one keeps its outstanding demand below `kMax`, where
balances count exactly. The invariant says of a careful subscriber that at
most one base element is under way, and of one that is also bounded how the
two balances relate to what was requested and delivered.

## Main definitions

* `FlatMapStream.replaced`: The base elements whose continuation is done.
* `FlatMapStream.Settled`: There is room for a request.
* `FlatMapStream.Rules`: What the partners may do.
* `FlatMapStream.Inv`: The invariant.

* `FlatMapStream.Good`: The invariant, or what is left of it after a check
  has failed.

## Theorems

* `FlatMapStream.Inv.safe`: The bounds the invariant is for.
* `FlatMapStream.Inv.quiet`: The invariant takes no notice of most calls.
-/

namespace RxCppUniq

open Theory

namespace FlatMapStream

variable {T R : Type}

/-- The log of a run of `FlatMapStream`. -/
abbrev FlatMapLog (T R : Type) := Log R (Option T) (Published T R)

/-- A `Done` of a continuation, which replaces a base element. -/
@[simp] def replaces : Entry R (Option T) (Published T R) → Nat
  | .call _ => 0
  | .out _ => 0
  | .ask _ _ => 0
  | .said _ none _ => 0
  | .said _ (some _) s => match s with
    | .onSubscribe => 0
    | .onNext e => if e.isDone then 1 else 0
    | .destroy => 0

/-- The base elements that have been fully replaced by their continuation. -/
def replaced (log : FlatMapLog T R) : Nat :=
  tally replaces log

@[simp] theorem replaced_nil : replaced ([] : FlatMapLog T R) = 0 := rfl

@[simp] theorem replaced_cons (n : Entry R (Option T) (Published T R)) (log : FlatMapLog T R) :
    replaced (n :: log) = replaced log + replaces n := rfl

/-- What the subscriber should receive for a call that comes in: the values
    and errors of the continuations, and the end of the base. -/
@[simp] def forwards : Entry R (Option T) (Published T R) → Option (StatusOr R)
  | .call _ => none
  | .out _ => none
  | .ask _ _ => none
  | .said _ none s => match s with
    | .onSubscribe => none
    | .onNext e => match e with
      | .value _ => none
      | .status s h => some (.status s h)
    | .destroy => none
  | .said _ (some _) s => match s with
    | .onSubscribe => none
    | .onNext e => if e.isDone then none else some e
    | .destroy => none

/-- What the subscriber should have received. -/
def forwarded (log : FlatMapLog T R) : List (StatusOr R) :=
  (log.filterMap forwards).reverse

@[simp] theorem forwarded_nil : forwarded ([] : FlatMapLog T R) = [] := rfl

@[simp] theorem forwarded_cons (n : Entry R (Option T) (Published T R)) (log : FlatMapLog T R) :
    forwarded (n :: log) = forwarded log ++ (forwards n).toList := by
  cases h : forwards n <;>
    simp only [forwarded, List.filterMap_cons, h, List.reverse_cons, Option.toList_none,
      Option.toList_some, List.append_nil]

/-- There is room for a request: it goes to a continuation, or the base owes
    nothing. -/
def Settled (st : Open (component T R)) : Prop :=
  st.state.contSubscription.isSome = true ∨ tokens 0 st.log = replaced st.log

instance (st : Open (component T R)) : Decidable (Settled st) :=
  inferInstanceAs (Decidable (_ ∨ _))

/-- The rules for the partners of a `FlatMapStream`. The subscriber does not
    cancel, and may be held to request only when there is room, and to keep
    its outstanding demand below `kMax`; the base and the continuations have
    strict flow control. -/
def Rules (careful bounded : Bool) (st : Open (component T R)) :
    Move Call Bool (Option T) (fun i => Signal (Published T R i)) → Prop
  | .call c =>
      Protocol.subscriber st.log c ∧ c ≠ .cancel ∧ (careful = true → Settled st) ∧
        (bounded = true → demand st.log - values (received st.log) + c.count < kMax)
  | .said p _ s => Protocol.stream p st.log s
  | .reply => True
  | .view _ _ => True
  | .run => True

instance (careful bounded : Bool) (st : Open (component T R))
    (m : Move Call Bool (Option T) (fun i => Signal (Published T R i))) :
    Decidable (Rules careful bounded st m) :=
  match m with
  | .call _ => inferInstanceAs (Decidable (_ ∧ _ ∧ _ ∧ _))
  | .said _ _ _ => inferInstanceAs (Decidable (Protocol.stream _ _ _))
  | .reply => inferInstanceAs (Decidable True)
  | .view _ _ => inferInstanceAs (Decidable True)
  | .run => inferInstanceAs (Decidable True)

/-- Nothing has passed between this stream and the one with number `p`. -/
structure Untouched (p : Nat) (log : FlatMapLog T R) : Prop where
  confirmed : confirmed p log = false
  arrived : arrived p log = []
  tokens : tokens p log = 0

/-- The stream with number `p` has delivered its last event. -/
structure Complete (p : Nat) (log : FlatMapLog T R) : Prop where
  confirmed : confirmed p log = true
  ended : ended (arrived p log) = true

/-- The balance of a bounded subscriber is what has not been delivered. -/
structure Counts (s : FlatMapStream) (log : FlatMapLog T R) : Prop where
  fits : s.requestBalance.balance < kMax
  served : s.requestBalance.balance + values (received log) = demand log

section Stages

variable (bounded : Bool) (s : FlatMapStream) (kinds : List (Option T)) (log : FlatMapLog T R)
  (vs : List T)

/-- Between two continuations: all of them are done. -/
structure Idle : Prop where
  started : log ≠ []
  kinds : kinds = none :: vs.map some
  complete : ∀ p, 1 ≤ p → p ≤ vs.length → Complete p log
  cont : s.contSubscription = none
  replaced : replaced log = vs.length
  owed : vs.length ≤ tokens 0 log
  requested : tokens 0 log ≤ vs.length + 1
  answered : vs.length ≤ (arrived 0 log).length
  counts : bounded = true → Counts s log
  waiting : bounded = true → (arrived 0 log).length < tokens 0 log →
    0 < s.requestBalance.balance
  running : ended (arrived 0 log) = false → ∀ e ∈ received log, e.isEnd = false

/-- The continuation of the last value is running, or has ended with an
    error. -/
structure Busy : Prop where
  kinds : kinds = none :: vs.map some
  started : 1 ≤ vs.length
  complete : ∀ p, 1 ≤ p → p < vs.length → Complete p log
  cont : s.contSubscription = if confirmed vs.length log then some vs.length else none
  replaced : replaced log + 1 = vs.length
  requested : tokens 0 log = vs.length
  answered : vs.length ≤ (arrived 0 log).length
  unconfirmed : confirmed vs.length log = false → Untouched vs.length log
  counts : bounded = true → Counts s log
  aligned : bounded = true → confirmed vs.length log = true →
    s.contRequested.balance = s.requestBalance.balance
  spent : bounded = true → confirmed vs.length log = true →
    ended (arrived vs.length log) = false →
    s.contRequested.balance + (arrived vs.length log).length = tokens vs.length log
  running : ended (arrived vs.length log) = false → ∀ e ∈ received log, e.isEnd = false

/-- What also holds after a check has failed. -/
structure Safe : Prop where
  base : tokens 0 log ≤ RxCppUniq.FlatMapStream.replaced log + 1
  ordered : ∀ p, 1 ≤ p → p + 1 < kinds.length → ended (arrived p log) = true
  strict : FlowWhen (bounded = true) log

/-- Nobody has subscribed yet, or one of the two stages. -/
def Stage : Prop :=
  (log = [] ∧ kinds = [] ∧ s = {}) ∨ (∃ vs, Idle bounded s kinds log vs) ∨
    ∃ vs, Busy bounded s kinds log vs

structure Inv : Prop where
  base : ∀ p, s.baseSubscription = some p → p = 0
  later : ∀ p, kinds.length ≤ p → Untouched p log
  order : received log = forwarded log
  strict : FlowWhen (bounded = true) log
  stage : Stage bounded s kinds log

end Stages

variable {bounded : Bool} {s s' : FlatMapStream} {kinds : List (Option T)}
  {log : FlatMapLog T R} {vs : List T}

theorem Inv.safe (h : Inv bounded s kinds log) : Safe bounded kinds log := by
  refine ⟨?_, ?_, h.strict⟩
  · rcases h.stage with ⟨hlog, -, -⟩ | ⟨vs, hf⟩ | ⟨vs, hf⟩
    · rw [hlog]
      exact Nat.zero_le _
    · rw [hf.replaced]
      exact hf.requested
    · rw [hf.replaced]
      exact Nat.le_of_eq hf.requested
  · intro p hp hlt
    rcases h.stage with ⟨-, hkinds, -⟩ | ⟨vs, hf⟩ | ⟨vs, hf⟩
    · rw [hkinds] at hlt
      exact absurd hlt (Nat.not_lt_zero _)
    · rw [hf.kinds, List.length_cons, List.length_map] at hlt
      exact (hf.complete p hp (by omega)).ended
    · rw [hf.kinds, List.length_cons, List.length_map] at hlt
      exact (hf.complete p hp (by omega)).ended

/-- A call that delivers nothing and asks the base for nothing leaves what is
    safe as it is. -/
theorem Safe.silent (h : Safe bounded kinds log) (n : Entry R (Option T) (Published T R))
    (hn : n.received = none) (ht : n.tokens 0 = 0) : Safe bounded kinds (n :: log) := by
  refine ⟨?_, ?_, h.strict.silent n hn⟩
  · have hbase := h.base
    simp only [tokens_cons, replaced_cons, ht]
    omega
  · intro p hp hlt
    simp only [arrived_cons, ended_append, h.ordered p hp hlt, Bool.true_or]

/-- A call the invariant does not take notice of. -/
structure Quiet (n : Entry R (Option T) (Published T R)) : Prop where
  demand : n.demand = 0
  tokens : ∀ p, n.tokens p = 0
  replaces : replaces n = 0
  arrived : ∀ p, n.arrived p = none
  confirms : ∀ p, 1 ≤ p → n.confirms p = false
  received : n.received = none
  forwards : forwards n = none

section Quiet

variable {n : Entry R (Option T) (Published T R)} (hn : Quiet n)

include hn

theorem Quiet.demand_cons : RxCppUniq.demand (n :: log) = RxCppUniq.demand log := by
  rw [RxCppUniq.demand_cons, hn.demand, Nat.add_zero]

theorem Quiet.tokens_cons (p : Nat) :
    RxCppUniq.tokens p (n :: log) = RxCppUniq.tokens p log := by
  rw [RxCppUniq.tokens_cons, hn.tokens, Nat.add_zero]

theorem Quiet.replaced_cons : replaced (n :: log) = replaced log := by
  rw [FlatMapStream.replaced_cons, hn.replaces, Nat.add_zero]

theorem Quiet.arrived_cons (p : Nat) :
    RxCppUniq.arrived p (n :: log) = RxCppUniq.arrived p log := by
  rw [RxCppUniq.arrived_cons, hn.arrived, Option.toList_none, List.append_nil]

theorem Quiet.confirmed_cons (p : Nat) (hp : 1 ≤ p) :
    confirmed p (n :: log) = confirmed p log := by
  rw [RxCppUniq.confirmed_cons, hn.confirms p hp, Bool.false_or]

theorem Quiet.received_cons : RxCppUniq.received (n :: log) = RxCppUniq.received log := by
  rw [RxCppUniq.received_cons, hn.received, Option.toList_none, List.append_nil]

theorem Quiet.forwarded_cons : forwarded (n :: log) = forwarded log := by
  rw [FlatMapStream.forwarded_cons, hn.forwards, Option.toList_none, List.append_nil]

end Quiet

theorem Untouched.cons {p : Nat} (h : Untouched p log) (n : Entry R (Option T) (Published T R))
    (hc : n.confirms p = false) (ha : n.arrived p = none) (ht : n.tokens p = 0) :
    Untouched p (n :: log) :=
  ⟨by rw [confirmed_cons, hc, Bool.false_or, h.confirmed],
    by rw [arrived_cons, ha, Option.toList_none, List.append_nil, h.arrived],
    by rw [tokens_cons, ht, Nat.add_zero, h.tokens]⟩

theorem Untouched.call {p : Nat} (h : Untouched p log) (c : Call) :
    Untouched p (.call c :: log) :=
  h.cons _ rfl rfl rfl

theorem Untouched.out {p : Nat} (h : Untouched p log) (o : Signal R) :
    Untouched p (.out o :: log) :=
  h.cons _ rfl rfl rfl

theorem Untouched.ask {p q : Nat} (h : Untouched p log) (hne : q ≠ p) (c : Call) :
    Untouched p (.ask q c :: log) :=
  h.cons _ rfl rfl (if_neg hne)

theorem Untouched.said {p q : Nat} (h : Untouched p log) (hne : q ≠ p) (i : Option T)
    (o : Signal (Published T R i)) : Untouched p (.said q i o :: log) := by
  refine h.cons _ ?_ (if_neg hne) rfl
  cases o with
  | onSubscribe => simpa only [Entry.confirms, beq_eq_false_iff_ne] using hne
  | onNext e => rfl
  | destroy => rfl

theorem Complete.mono {p : Nat} (h : Complete p log) (n : Entry R (Option T) (Published T R)) :
    Complete p (n :: log) :=
  ⟨by rw [confirmed_cons, h.confirmed, Bool.or_true],
    by rw [arrived_cons, ended_append, h.ended, Bool.true_or]⟩

theorem Counts.quiet (h : Counts s log) {n : Entry R (Option T) (Published T R)} (hn : Quiet n)
    (hbal : s'.requestBalance = s.requestBalance) : Counts s' (n :: log) := by
  refine ⟨?_, ?_⟩
  · rw [hbal]
    exact h.fits
  · rw [hbal, hn.received_cons, hn.demand_cons]
    exact h.served

theorem Idle.quiet (h : Idle bounded s kinds log vs) {n : Entry R (Option T) (Published T R)}
    (hn : Quiet n) (hcont : s'.contSubscription = s.contSubscription)
    (hbal : s'.requestBalance = s.requestBalance) : Idle bounded s' kinds (n :: log) vs where
  started := List.cons_ne_nil _ _
  kinds := h.kinds
  complete p hp hle := (h.complete p hp hle).mono n
  cont := hcont.trans h.cont
  replaced := by rw [hn.replaced_cons]; exact h.replaced
  owed := by rw [hn.tokens_cons]; exact h.owed
  requested := by rw [hn.tokens_cons]; exact h.requested
  answered := by rw [hn.arrived_cons]; exact h.answered
  counts hb := (h.counts hb).quiet hn hbal
  waiting hb := by rw [hn.arrived_cons, hn.tokens_cons, hbal]; exact h.waiting hb
  running := by rw [hn.arrived_cons, hn.received_cons]; exact h.running

theorem Busy.quiet (h : Busy bounded s kinds log vs) {n : Entry R (Option T) (Published T R)}
    (hn : Quiet n) (hcont : s'.contSubscription = s.contSubscription)
    (hbal : s'.requestBalance = s.requestBalance) (hreq : s'.contRequested = s.contRequested) :
    Busy bounded s' kinds (n :: log) vs where
  kinds := h.kinds
  started := h.started
  complete p hp hle := (h.complete p hp hle).mono n
  cont := by rw [hn.confirmed_cons _ h.started, hcont]; exact h.cont
  replaced := by rw [hn.replaced_cons]; exact h.replaced
  requested := by rw [hn.tokens_cons]; exact h.requested
  answered := by rw [hn.arrived_cons]; exact h.answered
  unconfirmed := by
    rw [hn.confirmed_cons _ h.started]
    exact fun hc => (h.unconfirmed hc).cons n (hn.confirms _ h.started) (hn.arrived _)
      (hn.tokens _)
  counts hb := (h.counts hb).quiet hn hbal
  aligned hb := by rw [hn.confirmed_cons _ h.started, hbal, hreq]; exact h.aligned hb
  spent hb := by
    rw [hn.confirmed_cons _ h.started, hn.arrived_cons, hn.tokens_cons, hreq]; exact h.spent hb
  running := by rw [hn.arrived_cons, hn.received_cons]; exact h.running

/-- A quiet call keeps the invariant. -/
theorem Inv.quiet (h : Inv bounded s kinds log) {n : Entry R (Option T) (Published T R)}
    (hn : Quiet n) (hstarted : kinds ≠ []) (hbase : ∀ p, s'.baseSubscription = some p → p = 0)
    (hcont : s'.contSubscription = s.contSubscription)
    (hbal : s'.requestBalance = s.requestBalance) (hreq : s'.contRequested = s.contRequested) :
    Inv bounded s' kinds (n :: log) := by
  refine ⟨hbase, ?_, ?_, h.strict.silent n hn.received, ?_⟩
  · intro p hp
    have hpos := List.length_pos_iff.mpr hstarted
    exact (h.later p hp).cons n (hn.confirms p (by omega)) (hn.arrived p) (hn.tokens p)
  · rw [hn.received_cons, hn.forwarded_cons]
    exact h.order
  · rcases h.stage with ⟨-, hkinds, -⟩ | ⟨vs, hf⟩ | ⟨vs, hf⟩
    · exact absurd hkinds hstarted
    · exact Or.inr (Or.inl ⟨vs, hf.quiet hn hcont hbal⟩)
    · exact Or.inr (Or.inr ⟨vs, hf.quiet hn hcont hbal hreq⟩)

theorem quiet_destroy (p : Nat) (i : Option T) :
    Quiet (.said p i .destroy : Entry R (Option T) (Published T R)) := by
  refine ⟨rfl, fun _ => rfl, ?_, ?_, fun _ _ => rfl, rfl, ?_⟩
  · cases i <;> rfl
  · intro q
    simp
  · cases i <;> rfl

theorem quiet_out_onSubscribe :
    Quiet (.out .onSubscribe : Entry R (Option T) (Published T R)) :=
  ⟨rfl, fun _ => rfl, rfl, fun _ => rfl, fun _ _ => rfl, rfl, rfl⟩

theorem quiet_out_destroy : Quiet (.out .destroy : Entry R (Option T) (Published T R)) :=
  ⟨rfl, fun _ => rfl, rfl, fun _ => rfl, fun _ _ => rfl, rfl, rfl⟩

theorem quiet_cancel (p : Nat) : Quiet (.ask p .cancel : Entry R (Option T) (Published T R)) :=
  ⟨rfl, fun q => by simp, rfl, fun _ => rfl, fun _ _ => rfl, rfl, rfl⟩

theorem quiet_base_onSubscribe :
    Quiet (.said 0 none .onSubscribe : Entry R (Option T) (Published T R)) := by
  refine ⟨rfl, fun _ => rfl, rfl, ?_, ?_, rfl, rfl⟩
  · intro q
    simp
  · intro q hq
    simp only [Entry.confirms, beq_eq_false_iff_ne]
    omega

theorem Inv.base_part (h : Inv bounded s kinds log) (p : Nat) (kind : kinds[p]? = some none) :
    p = 0 := by
  have hnot (vs : List T) (hk : kinds = none :: vs.map some) : p = 0 := by
    rw [hk] at kind
    cases p with
    | zero => rfl
    | succ p =>
        rw [List.getElem?_cons_succ, List.getElem?_map] at kind
        rcases Option.map_eq_some_iff.mp kind with ⟨v, -, hv⟩
        exact absurd hv (by simp)
  rcases h.stage with ⟨-, hkinds, -⟩ | ⟨vs, hf⟩ | ⟨vs, hf⟩
  · rw [hkinds] at kind
    exact absurd kind (by simp)
  · exact hnot vs hf.kinds
  · exact hnot vs hf.kinds

/-- The continuations are numbered from 1. -/
theorem Inv.cont_part (h : Inv bounded s kinds log) (p : Nat) (x : T)
    (kind : kinds[p]? = some (some x)) : 1 ≤ p ∧ p < kinds.length := by
  refine ⟨?_, (List.getElem?_eq_some_iff.mp kind).1⟩
  have hnot (vs : List T) (hk : kinds = none :: vs.map some) : 1 ≤ p := by
    rw [hk] at kind
    cases p with
    | zero => exact absurd kind (by simp)
    | succ p => exact Nat.le_add_left _ _
  rcases h.stage with ⟨-, hkinds, -⟩ | ⟨vs, hf⟩ | ⟨vs, hf⟩
  · rw [hkinds] at kind
    exact absurd kind (by simp)
  · exact hnot vs hf.kinds
  · exact hnot vs hf.kinds

theorem ne_nil_of_kind {p : Nat} {i : Option T} (kind : kinds[p]? = some i) : kinds ≠ [] := by
  intro hnil
  rw [hnil] at kind
  exact absurd kind (by simp)

theorem Inv.kinds_ne_nil (h : Inv bounded s kinds log) (hlog : log ≠ []) : kinds ≠ [] := by
  rcases h.stage with ⟨hnil, -, -⟩ | ⟨vs, hf⟩ | ⟨vs, hf⟩
  · exact absurd hnil hlog
  · rw [hf.kinds]
    exact List.cons_ne_nil _ _
  · rw [hf.kinds]
    exact List.cons_ne_nil _ _

/-- A stream that has delivered its last event delivers nothing more. -/
theorem Complete.not_strict {p : Nat} (h : Complete p log) (n : Nat) (c : StatusCode) :
    ¬ Strict n (arrived p log ++ [c]) := by
  rw [strict_append]
  rintro ⟨-, hok⟩
  exact absurd ((ended_eq_false _).mpr hok) (by rw [h.ended]; decide)

theorem Busy.base_silent (h : Busy bounded s kinds log vs) (c : StatusCode) :
    ¬ Strict (tokens 0 log) (arrived 0 log ++ [c]) := by
  rw [strict_append]
  rintro ⟨hlt, -⟩
  have hreq := h.requested
  have hans := h.answered
  omega

/-- The states of a run: the invariant, and what is left of it at the end of
    a run in which a check failed. -/
def Good (bounded : Bool) (st : Open (component T R)) : Prop :=
  st.turn = .outside ∧ Inv bounded st.state st.kinds st.log ∨
    st.turn.isFailed = true ∧ Safe bounded st.kinds st.log

theorem good_init (bounded : Bool) : Good bounded (Open.init (component T R)) := by
  refine Or.inl ⟨rfl, ?_, fun p _ => ⟨rfl, rfl, rfl⟩, rfl, flowWhen_nil _, Or.inl ⟨rfl, rfl, rfl⟩⟩
  intro p hp
  exact absurd hp (by simp only [Open.init, reduceCtorEq, not_false_eq_true])

end FlatMapStream

end RxCppUniq
