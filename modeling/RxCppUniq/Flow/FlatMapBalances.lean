import RxCppUniq.Reactive.FlatMap
import RxCppUniq.Theory.Frames

/-!
# The Two Balances of FlatMap

A `FlatMapStream` counts demand twice: what its subscriber has requested and
not received, and what was requested of the active continuation and has not
arrived from it. What it asks of the continuation is the difference of the
two, computed in `size_t`.

The subscriber requests what it likes, in any order and nesting, and may
cancel. The continuations deliver values as long as they owe some, and end
when they like. The base is held to one thing: it delivers no element while a
continuation is pending or active. Then the two balances agree whenever
control is outside the stream, the saturated ones included, and the difference
that is passed on never wraps.

## Main definitions

* `FlatMapStream.Alive`: A stream that may still call.
* `FlatMapStream.BalanceRules`: What the partners may do.
* `FlatMapStream.Agreed`: The invariant.
* `FlatMapStream.Agree`: The two balances agree, and no check fails.

## Theorems

* `FlatMapStream.delta_eq`: The difference is exact where it does not wrap.
* `FlatMapStream.balances_agree`: Every reachable state agrees.
-/

namespace RxCppUniq

open Theory

namespace FlatMapStream

variable {T R : Type}

/-- The stream with number `p` may still call: it has neither ended nor
    destroyed its subscriber. -/
def Alive (p : Nat) (log : Log R (Option T) (Published T R)) : Prop :=
  ended (arrived p log) = false ∧ released p log = false

instance (p : Nat) (log : Log R (Option T) (Published T R)) : Decidable (Alive p log) :=
  inferInstanceAs (Decidable (_ ∧ _))

/-- The stream with number `p` is the base, or a continuation that has come to
    its end. -/
def Vacant (log : Log R (Option T) (Published T R)) (p : Nat) : Option T → Prop
  | none => True
  | some _ => ¬ Alive p log

/-- No continuation is pending or active. -/
def Unoccupied (st : Open (component T R)) : Prop :=
  ∀ f ∈ st.kinds.zipIdx, Vacant st.log f.2 f.1

instance (log : Log R (Option T) (Published T R)) (p : Nat) (i : Option T) :
    Decidable (Vacant log p i) :=
  match i with
  | none => inferInstanceAs (Decidable True)
  | some _ => inferInstanceAs (Decidable (¬ _))

instance (st : Open (component T R)) : Decidable (Unoccupied st) :=
  inferInstanceAs (Decidable (∀ f ∈ st.kinds.zipIdx, _))

/-- What a continuation may do: it delivers values as long as they are owed,
    and ends once, when it likes. -/
def Continues (p : Nat) (log : Log R (Option T) (Published T R)) : Signal R → Prop
  | .onSubscribe => confirmed p log = false ∧ released p log = false
  | .onNext e => confirmed p log = true ∧ Alive p log ∧
      (e.isEnd = false → (owing p log).hasRequests = true)
  | .destroy => released p log = false

/-- The rules for the partners of a `FlatMapStream`. A request may be for any
    number of tokens. The base delivers no element while a continuation is
    pending or active, and is silent once it has destroyed the stream. -/
def BalanceRules (st : Open (component T R)) :
    Move Call Bool (Option T) (fun i => Signal (Published T R i)) → Prop
  | .call .subscribe => st.log.isEmpty = true
  | .call (.request n) => subscribed st.log = true ∧ n ≤ kMax
  | .call .cancel => subscribed st.log = true
  | .said p none s => released p st.log = false ∧
      ((s.event?.any (!·.isEnd)) = true → Unoccupied st)
  | .said p (some _) s => Continues p st.log s
  | .reply => True
  | .view _ _ => True
  | .run => True

instance (p : Nat) (log : Log R (Option T) (Published T R)) (s : Signal R) :
    Decidable (Continues p log s) :=
  match s with
  | .onSubscribe => inferInstanceAs (Decidable (_ ∧ _))
  | .onNext _ => inferInstanceAs (Decidable (_ ∧ _ ∧ (_ → _)))
  | .destroy => inferInstanceAs (Decidable (_ = _))

instance (st : Open (component T R))
    (m : Move Call Bool (Option T) (fun i => Signal (Published T R i))) :
    Decidable (BalanceRules st m) :=
  match m with
  | .call .subscribe => inferInstanceAs (Decidable (_ = _))
  | .call (.request _) => inferInstanceAs (Decidable (_ ∧ _))
  | .call .cancel => inferInstanceAs (Decidable (_ = _))
  | .said _ none _ => inferInstanceAs (Decidable (_ ∧ (_ → _)))
  | .said _ (some _) _ => inferInstanceAs (Decidable (Continues _ _ _))
  | .reply => inferInstanceAs (Decidable True)
  | .view _ _ => inferInstanceAs (Decidable True)
  | .run => inferInstanceAs (Decidable True)

/-- The difference of the two balances does not wrap as long as no more is
    requested of the continuation than is requested of the stream. -/
theorem delta_eq (s : FlatMapStream)
    (h : s.contRequested.balance ≤ s.requestBalance.balance) :
    s.delta = s.requestBalance.balance - s.contRequested.balance := by
  have hmax : s.requestBalance.balance ≤ 2 ^ 64 - 1 := s.requestBalance.le_kMax
  unfold delta
  omega

/-- Asking for the difference makes up for it. -/
theorem add_delta (s : FlatMapStream)
    (h : s.contRequested.balance ≤ s.requestBalance.balance) :
    s.contRequested.add s.delta = s.requestBalance := by
  have hmax := s.requestBalance.le_kMax
  ext
  rw [RequestBalance.balance_add, delta_eq s h]
  omega

/-- The stream with number `q` has no part in an entry. -/
structure Apart (q : Nat) (n : Entry R (Option T) (Published T R)) : Prop where
  arrived : n.arrived q = none
  confirms : n.confirms q = false
  releases : n.releases q = false
  tokens : n.tokens q = 0
  supplied : n.supplied q = 0

namespace Apart

variable {q : Nat} {n : Entry R (Option T) (Published T R)}
  {log : Log R (Option T) (Published T R)}

theorem arrived_eq (h : Apart q n) : RxCppUniq.arrived q (n :: log) = RxCppUniq.arrived q log := by
  rw [arrived_cons, h.arrived, Option.toList_none, List.append_nil]

theorem confirmed_eq (h : Apart q n) : confirmed q (n :: log) = confirmed q log := by
  rw [confirmed_cons, h.confirms, Bool.false_or]

theorem owing_eq (h : Apart q n) : owing q (n :: log) = owing q log := by
  rw [owing_cons, h.tokens, h.supplied, RequestBalance.counted_add, RequestBalance.add_zero]

theorem active_iff (h : Apart q n) : Alive q (n :: log) ↔ Alive q log := by
  rw [Alive, h.arrived_eq, released_cons, h.releases, Bool.false_or]
  exact Iff.rfl

theorem call (c : Call) : Apart q (.call c : Entry R (Option T) (Published T R)) :=
  ⟨rfl, rfl, rfl, rfl, rfl⟩

theorem out (o : Signal R) : Apart q (.out o : Entry R (Option T) (Published T R)) :=
  ⟨rfl, rfl, rfl, rfl, rfl⟩

theorem ask (p : Nat) (c : Call) (h : p ≠ q) :
    Apart q (.ask p c : Entry R (Option T) (Published T R)) :=
  ⟨rfl, rfl, rfl, if_neg h, rfl⟩

theorem said (p : Nat) (i : Option T) (o : Signal (Published T R i)) (h : p ≠ q) :
    Apart q (.said p i o : Entry R (Option T) (Published T R)) := by
  have hbeq : (p == q) = false := beq_eq_false_iff_ne.mpr h
  cases o with
  | onSubscribe => exact ⟨if_neg h, hbeq, rfl, rfl, rfl⟩
  | onNext e => exact ⟨if_neg h, rfl, rfl, rfl, if_neg fun hno => h hno.1⟩
  | destroy => exact ⟨if_neg h, rfl, hbeq, rfl, rfl⟩

end Apart

/-- What is known of the streams and of the two balances, between the places
    where they are brought together. -/
structure Counted (s : FlatMapStream) (kinds : List (Option T))
    (log : Log R (Option T) (Published T R)) : Prop where
  first : log = [] → kinds = []
  demand : s.requestBalance = outstanding log
  asked : ∀ p, s.baseSubscription = some p → kinds[p]? = some none
  kind : ∀ p, s.contSubscription = some p → ∃ v, kinds[p]? = some (some v)
  conf : ∀ p, s.contSubscription = some p → confirmed p log = true
  owed : ∀ p, s.contSubscription = some p → owing p log = s.contRequested
  most : s.contSubscription ≠ none → s.contRequested.balance ≤ s.requestBalance.balance
  known : ∀ p v, kinds[p]? = some (some v) → Alive p log → confirmed p log = true →
    s.contSubscription = some p
  one : ∀ p v q w, kinds[p]? = some (some v) → kinds[q]? = some (some w) → Alive p log →
    Alive q log → p = q
  unasked : ∀ p, kinds[p]? ≠ some none → confirmed p log = false →
    owing p log = .zero ∧ arrived p log = []
  fresh : ∀ p, kinds.length ≤ p → confirmed p log = false

/-- The invariant: what is known, and the balances agree. -/
structure Agreed (s : FlatMapStream) (kinds : List (Option T))
    (log : Log R (Option T) (Published T R)) : Prop extends Counted s kinds log where
  agree : s.contSubscription ≠ none → s.contRequested = s.requestBalance

/-- The invariant as a specification. -/
def balances (T R : Type) : Open.Spec (component T R) where
  Core := Agreed
  Frame _ _ _ _ := True
  Safe _ _ := True

section Keeps

variable {s t : FlatMapStream} {kinds : List (Option T)}
  {before log : Log R (Option T) (Published T R)}

theorem balances_keeps {r : Result T R}
    (h : (∃ msg, r.2 = .fail msg) ∨ Agreed r.1 (r.2.kinds kinds) (r.2.log kinds log)) :
    (balances T R).Keeps s kinds before log r :=
  ⟨trivial, h, fun _ _ => trivial, fun _ _ _ => trivial⟩

/-- An entry in which no continuation has a part, after which the demand is
    `b`. -/
theorem Counted.note (h : Counted s kinds log) (n : Entry R (Option T) (Published T R))
    (b : RequestBalance) (hb : b = (outstanding log).counted n.demand n.served)
    (hmost : s.contSubscription ≠ none → s.contRequested.balance ≤ b.balance)
    (hkeep : ∀ p, kinds[p]? ≠ some none → Apart p n) :
    Counted { s with requestBalance := b } kinds (n :: log) := by
  have hcont (p : Nat) (v : T) (hp : kinds[p]? = some (some v)) : Apart p n := by
    refine hkeep p ?_
    rw [hp]
    exact fun hno => Option.some_ne_none v (Option.some.inj hno)
  refine
    { first := fun hnil => (by cases hnil)
      demand := hb
      asked := h.asked
      kind := h.kind
      conf := fun p hp => ?_
      owed := fun p hp => ?_
      most := hmost
      known := fun p v hp hact hconf => ?_
      one := fun p v q w hp hq hactp hactq => ?_
      unasked := fun p hp hconf => ?_
      fresh := fun p hp => ?_ }
  · rcases h.kind p hp with ⟨v, hv⟩
    rw [(hcont p v hv).confirmed_eq]
    exact h.conf p hp
  · rcases h.kind p hp with ⟨v, hv⟩
    rw [(hcont p v hv).owing_eq]
    exact h.owed p hp
  · exact h.known p v hp ((hcont p v hp).active_iff.mp hact) ((hcont p v hp).confirmed_eq ▸ hconf)
  · exact h.one p v q w hp hq ((hcont p v hp).active_iff.mp hactp)
      ((hcont q w hq).active_iff.mp hactq)
  · rw [(hkeep p hp).owing_eq, (hkeep p hp).arrived_eq]
    exact h.unasked p hp ((hkeep p hp).confirmed_eq ▸ hconf)
  · have hnone : kinds[p]? ≠ some none := by
      rw [List.getElem?_eq_none hp]
      exact fun hno => (by cases hno)
    rw [(hkeep p hnone).confirmed_eq]
    exact h.fresh p hp

/-- The same entry where the demand stays what it is. -/
theorem Agreed.note (h : Agreed s kinds log) (n : Entry R (Option T) (Published T R))
    (hdemand : n.demand = 0) (hserved : n.served = 0)
    (hkeep : ∀ p, kinds[p]? ≠ some none → Apart p n) : Agreed s kinds (n :: log) := by
  have hnote := h.toCounted.note n s.requestBalance
    (by rw [hdemand, hserved, RequestBalance.counted_add, RequestBalance.add_zero]; exact h.demand)
    h.most hkeep
  exact { hnote with agree := h.agree }

/-- An entry in which of all streams only the continuation with number `p` has
    a part. What the entry brings about there is left to the caller. -/
theorem Counted.touch (h : Counted s kinds log) (p : Nat) (v : T)
    (hkind : kinds[p]? = some (some v)) (n : Entry R (Option T) (Published T R))
    (hdemand : n.demand = 0) (hserved : n.served = 0)
    (hkeep : ∀ q, q ≠ p → Apart q n)
    (hrequest : t.requestBalance = s.requestBalance)
    (hbase : t.baseSubscription = s.baseSubscription)
    (hcont : ∀ q, t.contSubscription = some q → q ≠ p →
      s.contSubscription = some q ∧ t.contRequested = s.contRequested)
    (hself : t.contSubscription = some p →
      confirmed p (n :: log) = true ∧ owing p (n :: log) = t.contRequested)
    (hmost : t.contSubscription ≠ none → t.contRequested.balance ≤ t.requestBalance.balance)
    (hactive : Alive p (n :: log) → Alive p log)
    (hknown : Alive p (n :: log) → confirmed p (n :: log) = true → t.contSubscription = some p)
    (hother : ∀ q w, q ≠ p → kinds[q]? = some (some w) → Alive q log →
      s.contSubscription = some q → t.contSubscription = some q)
    (hunasked : confirmed p (n :: log) = false → owing p (n :: log) = .zero ∧
      arrived p (n :: log) = []) :
    Counted t kinds (n :: log) := by
  -- an end or a deletion is the only way an entry changes what is active
  have hactive' (q : Nat) (hact : Alive q (n :: log)) : Alive q log := by
    by_cases hq : q = p
    · exact hq ▸ hactive (hq ▸ hact)
    · exact (hkeep q hq).active_iff.mp hact
  refine
    { first := fun hnil => (by cases hnil)
      demand := ?_
      asked := hbase ▸ h.asked
      kind := fun q hq => ?_
      conf := fun q hq => ?_
      owed := fun q hq => ?_
      most := hmost
      known := fun q w hw hact hconf => ?_
      one := fun q w q' w' hw hw' hact hact' =>
        h.one q w q' w' hw hw' (hactive' q hact) (hactive' q' hact')
      unasked := fun q hq hconf => ?_
      fresh := fun q hq => ?_ }
  · rw [hrequest, outstanding_cons, hdemand, hserved, RequestBalance.counted_add,
      RequestBalance.add_zero]
    exact h.demand
  · by_cases hqp : q = p
    · exact ⟨v, hqp ▸ hkind⟩
    · exact h.kind q (hcont q hq hqp).1
  · by_cases hqp : q = p
    · subst hqp
      exact (hself hq).1
    · rw [(hkeep q hqp).confirmed_eq]
      exact h.conf q (hcont q hq hqp).1
  · by_cases hqp : q = p
    · subst hqp
      exact (hself hq).2
    · rw [(hkeep q hqp).owing_eq, (hcont q hq hqp).2]
      exact h.owed q (hcont q hq hqp).1
  · by_cases hqp : q = p
    · subst hqp
      exact hknown hact hconf
    · have hold := hactive' q hact
      exact hother q w hqp hw hold (h.known q w hw hold ((hkeep q hqp).confirmed_eq ▸ hconf))
  · by_cases hqp : q = p
    · subst hqp
      exact hunasked hconf
    · rw [(hkeep q hqp).owing_eq, (hkeep q hqp).arrived_eq]
      exact h.unasked q hq ((hkeep q hqp).confirmed_eq ▸ hconf)
  · have hlt := (List.getElem?_eq_some_iff.mp hkind).1
    rw [(hkeep q (by omega)).confirmed_eq]
    exact h.fresh q hq

/-- The base is called. -/
theorem balances_askBase (h : Agreed t kinds log) (c : Call) :
    (balances T R).Keeps s kinds before log (t.askBase c) := by
  unfold askBase
  split
  · exact balances_keeps (Or.inl ⟨_, rfl⟩)
  · next p hp =>
      refine balances_keeps (Or.inr (h.note (.ask p c) rfl rfl fun q hq => ?_))
      exact .ask p c fun heq => hq (heq ▸ h.asked p hp)

/-- The difference is requested, after which the balances agree. -/
theorem balances_request (n : Nat)
    (h : Counted { t with requestBalance := t.requestBalance.add n } kinds log) :
    (balances T R).Keeps s kinds before log (t.request n) := by
  unfold request
  dsimp only
  split
  · next p hp =>
      have hmost := h.most (by rw [show _ = some p from hp]; exact Option.some_ne_none p)
      split
      · next hpos =>
          refine balances_keeps (Or.inr ?_)
          have hadd := add_delta { t with requestBalance := t.requestBalance.add n } hmost
          rcases h.kind p hp with ⟨v, hv⟩
          have hconf := h.conf p hp
          -- the tokens are added on both sides: to what was asked for, and to what is owed
          have howing : owing p (.ask p (.request
              ({ t with requestBalance := t.requestBalance.add n } : FlatMapStream).delta) :: log) =
              t.requestBalance.add n := by
            rw [owing_cons, h.owed p hp, Entry.tokens, if_pos rfl, Call.count, Entry.supplied,
              RequestBalance.counted_add]
            exact hadd
          refine { toCounted := ?_, agree := fun _ => hadd }
          refine h.touch p v hv _ rfl rfl (fun q hq => .ask p _ (Ne.symm hq))
            rfl rfl (fun q hq hqp => ?_) (fun _ => ⟨hconf, howing.trans hadd.symm⟩) (fun _ => ?_)
            id (fun _ _ => hp) (fun q _ _ _ _ hq => hq) fun hno => ?_
          · exact absurd (Option.some.inj (hq.symm.trans hp)) hqp
          · exact Nat.le_of_eq (congrArg RequestBalance.balance hadd)
          · exact absurd (hno.symm.trans hconf) Bool.false_ne_true
      · next hzero =>
          refine balances_keeps (Or.inr { h with agree := fun _ => ?_ })
          have heq := delta_eq { t with requestBalance := t.requestBalance.add n } hmost
          ext
          simp only [] at heq hmost ⊢
          omega
  · next hnone =>
      exact balances_askBase (t := { t with requestBalance := t.requestBalance.add n })
        { h with agree := fun hne => absurd hnone hne } (.request 1)

theorem balances_send (h : Agreed t kinds log) (event : StatusOr R) (k : Point)
    (hend : event.isEnd = true) :
    (balances T R).Keeps s kinds before log (t.send event k) := by
  refine balances_keeps (Or.inr (h.note (.out (.onNext event)) rfl ?_ fun _ _ => .out _))
  rw [Entry.served, hend, if_pos rfl]

/-- A new stream, where no continuation is pending or active. -/
theorem Agreed.make (h : Agreed s kinds log) (i : Option T)
    (hfree : ∀ q w, kinds[q]? = some (some w) → ¬ Alive q log) :
    Agreed s (kinds ++ [i]) (.ask kinds.length .subscribe :: log) := by
  have hnote := h.note (.ask kinds.length .subscribe) rfl rfl
    fun _ _ => ⟨rfl, rfl, rfl, ite_self _, rfl⟩
  have hold (q : Nat) (j : Option T) (hq : kinds[q]? = some j) : (kinds ++ [i])[q]? = some j := by
    rw [List.getElem?_append_left (List.getElem?_eq_some_iff.mp hq).1]
    exact hq
  have hnew (q : Nat) (j : Option T) (hq : (kinds ++ [i])[q]? = some j) :
      kinds[q]? = some j ∨ q = kinds.length ∧ i = j := by
    rcases Nat.lt_or_ge q kinds.length with hlt | hge
    · rw [List.getElem?_append_left hlt] at hq
      exact Or.inl hq
    · rw [List.getElem?_append_right hge] at hq
      have hlt := (List.getElem?_eq_some_iff.mp hq).1
      rw [List.length_singleton] at hlt
      have hzero : q - kinds.length = 0 := by omega
      rw [hzero] at hq
      exact Or.inr ⟨by omega, Option.some.inj hq⟩
  -- the new stream has confirmed nothing, so it is no continuation in use
  have hlast : confirmed kinds.length (.ask kinds.length .subscribe :: log) = false :=
    hnote.fresh kinds.length (Nat.le_refl _)
  refine
    { hnote with
      first := fun hnil => (by cases hnil)
      asked := fun q hq => hold q none (hnote.asked q hq)
      kind := fun q hq => ?_
      known := fun q w hw hact hconf => ?_
      one := fun q w q' w' hw hw' hact hact' => ?_
      unasked := fun q hq hconf => ?_
      fresh := fun q hq => ?_ }
  · rcases hnote.kind q hq with ⟨v, hv⟩
    exact ⟨v, hold q _ hv⟩
  · rcases hnew q _ hw with hw | ⟨rfl, -⟩
    · exact hnote.known q w hw hact hconf
    · exact absurd (hlast.symm.trans hconf) Bool.false_ne_true
  · rcases hnew q _ hw with hw | ⟨rfl, -⟩
    · exact absurd hact (hfree q w hw)
    · rcases hnew q' _ hw' with hw' | ⟨rfl, -⟩
      · exact absurd hact' (hfree q' w' hw')
      · rfl
  · exact hnote.unasked q (fun hno => hq (hold q none hno)) hconf
  · rw [List.length_append] at hq
    exact hnote.fresh q (by omega)

/-- The base calls. -/
theorem Agreed.said_base (h : Agreed s kinds log) (p : Nat) (o : Signal T)
    (hkind : kinds[p]? = some none) : Agreed s kinds (.said p none o :: log) :=
  h.note (.said p none o) rfl rfl fun _ hq => .said p none o fun heq => hq (heq ▸ hkind)

/-- The continuation that is confirmed is the only one that may call. -/
theorem Agreed.alone (h : Agreed s kinds log) (p : Nat) (v : T)
    (hkind : kinds[p]? = some (some v)) (hact : Alive p log) (q : Nat) (w : T) (hq : q ≠ p)
    (hkindq : kinds[q]? = some (some w)) : ¬ Alive q log :=
  fun hactq => hq (h.one q w p v hkindq hkind hactq hact)

theorem ne_base (p : Nat) (v : T) (hkind : kinds[p]? = some (some v)) :
    kinds[p]? ≠ some none := by
  rw [hkind]
  exact fun hno => Option.some_ne_none v (Option.some.inj hno)

/-- A continuation hands out its subscription and is asked for all that is
    outstanding. -/
theorem balances_onSubscribeCont (h : Agreed s kinds log) (p : Nat) (v : T)
    (hkind : kinds[p]? = some (some v)) (hconf : confirmed p log = false)
    (hreleased : released p log = false) :
    (balances T R).Keeps s kinds log (.said p (some v) .onSubscribe :: log)
      (s.onSubscribeCont p) := by
  rcases h.unasked p (ne_base p v hkind) hconf with ⟨howing, harrived⟩
  have hact : Alive p log := ⟨by rw [harrived]; rfl, hreleased⟩
  have hconf' : confirmed p (.said p (some v) .onSubscribe :: log) = true := by
    rw [confirmed_cons, Entry.confirms, beq_self_eq_true, Bool.true_or]
  -- the count of the continuation begins at zero, as nothing was asked of it
  have hcounted : Counted { s with contSubscription := some p, contRequested := .zero } kinds
      (.said p (some v) .onSubscribe :: log) := by
    refine h.touch p v hkind _ rfl rfl (fun q hq => .said p _ _ (Ne.symm hq)) rfl rfl
      (fun q hq hqp => ?_) (fun _ => ⟨hconf', ?_⟩) (fun _ => Nat.zero_le _) (fun _ => hact)
      (fun _ _ => rfl) (fun q w hq hkindq hactq _ => ?_) fun hno => ?_
    · exact absurd (Option.some.inj hq).symm hqp
    · rw [owing_cons, Entry.tokens, Entry.supplied, RequestBalance.counted_add,
        RequestBalance.add_zero]
      exact howing
    · exact absurd hactq (h.alone p v hkind hact q w hq hkindq)
    · exact absurd (hno.symm.trans hconf') Bool.false_ne_true
  unfold onSubscribeCont
  by_cases hended : s.hasEnded = true
  · rw [if_pos hended]
    exact balances_keeps (Or.inl ⟨_, rfl⟩)
  · rw [if_neg hended]
    dsimp only
    -- with no demand both balances are empty already
    by_cases hrequests : s.requestBalance.hasRequests = true
    · rw [if_pos hrequests]
      refine balances_request 0 ?_
      rw [RequestBalance.add_zero]
      exact hcounted
    · rw [if_neg hrequests]
      refine balances_keeps (Or.inr { hcounted with agree := fun _ => ?_ })
      rw [RequestBalance.hasRequests_iff] at hrequests
      ext
      simp only [RequestBalance.balance_zero]
      omega

/-- A value is taken from both balances, in which it is. -/
theorem balances_value (h : Agreed s kinds log) (p : Nat) (v : T)
    (hkind : kinds[p]? = some (some v)) (hconf : confirmed p log = true) (hact : Alive p log)
    (r : R) (hrequests : (owing p log).hasRequests = true) :
    (∀ msg, (s.onNextCont (T := T) (.value r)).2 = .fail msg → msg = useAfterFree) ∧
      (balances T R).Keeps s kinds log (.said p (some v) (.onNext (.value r)) :: log)
        (s.onNextCont (.value r)) := by
  have hcont := h.known p v hkind hact hconf
  have hsome : s.contSubscription ≠ none := by
    rw [hcont]
    exact Option.some_ne_none p
  -- as the balances agree, the check on the one is the check on the other
  have hagree := h.agree hsome
  have howed := h.owed p hcont
  rw [howed, RequestBalance.hasRequests_iff] at hrequests
  rcases RequestBalance.remove_isSome s.contRequested hrequests with ⟨b, hb⟩
  have hb' : s.requestBalance.remove 1 = some b := hagree ▸ hb
  have hle := RequestBalance.balance_remove_le _ b 1 hb'
  have hsaid : Counted { s with contRequested := b } kinds
      (.said p (some v) (.onNext (.value r)) :: log) := by
    refine h.touch p v hkind _ rfl rfl (fun q hq => .said p _ _ (Ne.symm hq)) rfl rfl
      (fun q hq hqp => ?_) (fun _ => ⟨hconf, ?_⟩) (fun _ => hle) (fun _ => hact) (fun _ _ => hcont)
      (fun q _ _ _ _ hq => hq) fun hno => ?_
    · exact absurd (Option.some.inj (hq.symm.trans hcont)) hqp
    · rw [owing_cons, howed, Entry.tokens, Entry.supplied,
        if_pos ⟨rfl, StatusOr.isEnd_value r⟩]
      exact RequestBalance.counted_remove _ _ _ hb
    · exact absurd (hno.symm.trans hconf) Bool.false_ne_true
  have hout : Counted { s with requestBalance := b, contRequested := b } kinds
      (.out (.onNext (.value r)) :: .said p (some v) (.onNext (.value r)) :: log) := by
    refine hsaid.note (.out (.onNext (.value r))) b ?_ (fun _ => Nat.le_refl _)
      fun q _ => .out _
    rw [← hsaid.demand, Entry.demand, Entry.served, StatusOr.isEnd_value,
      if_neg Bool.false_ne_true]
    exact (RequestBalance.counted_remove _ _ _ hb').symm
  unfold onNextCont
  by_cases hended : s.hasEnded = true
  · rw [if_pos hended]
    exact ⟨fun msg hmsg => (Act.fail.inj hmsg).symm, balances_keeps (Or.inl ⟨_, rfl⟩)⟩
  · rw [if_neg hended, StatusOr.isEnd_value, Bool.not_false, if_pos rfl, hb']
    dsimp only
    rw [hb]
    refine ⟨fun msg hmsg => (by cases hmsg), balances_keeps (Or.inr ?_)⟩
    exact { hout with agree := fun _ => rfl }

/-- A continuation ends, and is no longer the active one when it is done. -/
theorem balances_end (h : Agreed s kinds log) (p : Nat) (v : T)
    (hkind : kinds[p]? = some (some v)) (hconf : confirmed p log = true) (hact : Alive p log)
    (e : StatusOr R) (hend : e.isEnd = true) :
    (balances T R).Keeps s kinds log (.said p (some v) (.onNext e) :: log) (s.onNextCont e) := by
  have hcont := h.known p v hkind hact hconf
  have hgone : ¬ Alive p (.said p (some v) (.onNext e) :: log) := by
    intro hno
    have hno := hno.1
    rw [arrived_cons, Entry.arrived, if_pos rfl, Signal.event?, Option.map_some,
      Option.toList_some, ended_append, ended_singleton] at hno
    have hend' : (e.code != .ok) = true := hend
    rw [hend', Bool.or_true] at hno
    cases hno
  have hkeep : ∀ q, q ≠ p → Apart q (.said p (some v) (.onNext e) :
      Entry R (Option T) (Published T R)) := fun q hq => .said p _ _ (Ne.symm hq)
  have howing : owing p (.said p (some v) (.onNext e) :: log) = owing p log := by
    rw [owing_cons, Entry.tokens, Entry.supplied, if_neg, RequestBalance.counted_add,
      RequestBalance.add_zero]
    exact fun hno => absurd (hno.2.symm.trans hend) Bool.false_ne_true
  -- after a Done the stream forgets the continuation, after an error it does not
  have hdone : Counted { s with contSubscription := none } kinds
      (.said p (some v) (.onNext e) :: log) := by
    refine h.touch p v hkind _ rfl rfl hkeep rfl rfl (fun q hq _ => (by cases hq))
      (fun hno => (by cases hno)) (fun hno => absurd rfl hno) (fun _ => hact)
      (fun hno _ => absurd hno hgone) (fun q w hq hkindq hactq _ => ?_) fun hno => ?_
    · exact absurd hactq (h.alone p v hkind hact q w hq hkindq)
    · exact absurd (hno.symm.trans hconf) Bool.false_ne_true
  have herror : Agreed s kinds (.said p (some v) (.onNext e) :: log) := by
    refine { toCounted := ?_, agree := h.agree }
    refine h.touch p v hkind _ rfl rfl hkeep rfl rfl (fun q hq _ => ⟨hq, rfl⟩)
      (fun hq => ⟨hconf, howing.trans (h.owed p hq)⟩) h.most (fun _ => hact)
      (fun hno _ => absurd hno hgone) (fun q _ _ _ _ hq => hq) fun hno => ?_
    exact absurd (hno.symm.trans hconf) Bool.false_ne_true
  unfold onNextCont
  by_cases hended : s.hasEnded = true
  · rw [if_pos hended]
    exact balances_keeps (Or.inl ⟨_, rfl⟩)
  · rw [if_neg hended, hend, Bool.not_true, if_neg Bool.false_ne_true]
    by_cases hisDone : e.isDone = true
    · rw [if_pos hisDone]
      dsimp only
      by_cases hrequests : s.requestBalance.hasRequests = true
      · rw [if_pos hrequests]
        refine balances_request 0 ?_
        rw [RequestBalance.add_zero]
        exact hdone
      · rw [if_neg hrequests]
        exact balances_keeps (Or.inr { hdone with agree := fun hno => absurd rfl hno })
    · rw [if_neg hisDone]
      exact balances_send herror e .terminate hend

/-- A continuation lets go of its subscriber. -/
theorem Agreed.said_destroy (h : Agreed s kinds log) (p : Nat) (v : T)
    (hkind : kinds[p]? = some (some v)) :
    Agreed s kinds (.said p (some v) .destroy :: log) := by
  have hgone : ¬ Alive p (.said p (some v) .destroy :: log) := by
    intro hno
    have hno := hno.2
    rw [released_cons, Entry.releases, beq_self_eq_true, Bool.true_or] at hno
    cases hno
  have howing : owing p (.said p (some v) .destroy :: log) = owing p log := by
    rw [owing_cons, Entry.tokens, Entry.supplied, RequestBalance.counted_add,
      RequestBalance.add_zero]
  have harrived : arrived p (.said p (some v) .destroy :: log) = arrived p log := by
    rw [arrived_cons, Entry.arrived, Signal.event?, Option.map_none, ite_self,
      Option.toList_none, List.append_nil]
  refine { toCounted := ?_, agree := h.agree }
  refine h.touch p v hkind _ rfl rfl (fun q hq => .said p _ _ (Ne.symm hq)) rfl rfl
    (fun q hq _ => ⟨hq, rfl⟩) (fun hq => ⟨h.conf p hq, howing.trans (h.owed p hq)⟩) h.most
    (fun hno => absurd hno hgone) (fun hno _ => absurd hno hgone) (fun q _ _ _ _ hq => hq)
    fun hno => ?_
  rw [howing, harrived]
  exact h.unasked p (ne_base p v hkind) hno

end Keeps

theorem Agreed.init : Agreed {} [] ([] : Log R (Option T) (Published T R)) where
  first _ := rfl
  demand := rfl
  asked _ hp := by cases hp
  kind _ hp := by cases hp
  conf _ hp := by cases hp
  owed _ hp := by cases hp
  most hne := absurd rfl hne
  known _ _ hp := by cases hp
  one _ _ _ _ hp := by cases hp
  unasked _ _ _ := ⟨rfl, rfl⟩
  fresh _ _ := rfl
  agree hne := absurd rfl hne

/-- Where no continuation is pending or active, none may call. -/
theorem Unoccupied.not_active {st : Open (component T R)} (h : Unoccupied st) (p : Nat) (v : T)
    (hkind : st.kinds[p]? = some (some v)) : ¬ Alive p st.log := by
  have hmem : (some v, p) ∈ st.kinds.zipIdx := by
    rw [List.mk_mem_zipIdx_iff_getElem?]
    exact hkind
  exact h _ hmem

/-- A request is noted and passed on. -/
theorem balances_call (st : Open (component T R)) (c : Call) (hok : BalanceRules st (.call c))
    (h : Agreed st.state st.kinds st.log) :
    (balances T R).Keeps st.state st.kinds st.log (.call c :: st.log)
      ((component T R).call st.views st.state c) := by
  cases c with
  | subscribe =>
      have hcalled := h.note (.call .subscribe) rfl rfl fun _ _ => .call _
      refine balances_keeps (Or.inr (hcalled.make none fun q w hq _ => ?_))
      rw [h.first (List.isEmpty_iff.mp hok)] at hq
      cases hq
  | request n =>
      refine balances_request n (h.toCounted.note (.call (.request n)) _ ?_ (fun hne => ?_)
        fun _ _ => .call _)
      · rw [h.demand, Entry.demand, Entry.served, RequestBalance.counted_add, Call.count]
      · have hmost := h.most hne
        have hle := st.state.requestBalance.le_kMax
        rw [RequestBalance.balance_add]
        omega
  | cancel => exact balances_askBase (h.note (.call .cancel) rfl rfl fun _ _ => .call _) .cancel

theorem balances_said (st : Open (component T R)) (p : Nat) (i : Option T)
    (o : Signal (Published T R i)) (hok : BalanceRules st (.said p i o))
    (hkind : st.kinds[p]? = some i) (h : Agreed st.state st.kinds st.log) :
    (balances T R).Keeps st.state st.kinds st.log (.said p i o :: st.log)
      ((component T R).said st.views st.state p i o) := by
  cases i with
  | none =>
      have hsaid := h.said_base p o hkind
      cases o with
      | onSubscribe =>
          have hbase : Agreed { st.state with baseSubscription := some p } st.kinds
              (.said p none .onSubscribe :: st.log) :=
            { hsaid with asked := fun q hq => (Option.some.inj hq) ▸ hkind }
          exact balances_keeps (Or.inr (hbase.note (.out .onSubscribe) rfl rfl fun _ _ => .out _))
      | onNext e =>
          cases e with
          | status status hs => exact balances_send hsaid _ .done (StatusOr.isEnd_status _ hs)
          | value v =>
              simp only [component, onNext]
              by_cases hbusy : st.state.contSubscription.isSome = true
              · rw [if_pos hbusy]
                exact balances_send hsaid _ .terminate (StatusOr.isEnd_status _ _)
              · rw [if_neg hbusy]
                -- the base publishes a value only while no continuation runs
                have hfree : Unoccupied st := hok.2 rfl
                refine balances_keeps (Or.inr (hsaid.make (some v) fun q w hq hact => ?_))
                have hne : p ≠ q := by
                  intro heq
                  rw [heq, hq] at hkind
                  cases hkind
                have happart : Apart q (.said p none (.onNext (.value v)) :
                    Entry R (Option T) (Published T R)) := .said p none _ hne
                exact hfree.not_active q w hq (happart.active_iff.mp hact)
      | destroy =>
          simp only [component, destructor, destroyed]
          split
          · next q hq =>
              split
              · have hout := hsaid.note (.out .destroy) rfl rfl fun _ _ => .out _
                exact balances_keeps (Or.inr { hout with })
              · exact balances_keeps (Or.inr (hsaid.note (.ask q .cancel) rfl rfl
                  fun _ _ => ⟨rfl, rfl, rfl, ite_self _, rfl⟩))
          · have hout := hsaid.note (.out .destroy) rfl rfl fun _ _ => .out _
            exact balances_keeps (Or.inr { hout with })
  | some v =>
      cases o with
      | onSubscribe => exact balances_onSubscribeCont h p v hkind hok.1 hok.2
      | onNext e =>
          cases hend : e.isEnd with
          | true => exact balances_end h p v hkind hok.1 hok.2.1 e hend
          | false =>
              cases e with
              | value r => exact (balances_value h p v hkind hok.1 hok.2.1 r (hok.2.2 hend)).2
              | status s hs =>
                  exact absurd (hend.symm.trans (StatusOr.isEnd_status s hs)) Bool.false_ne_true
      | destroy => exact balances_keeps (Or.inr (h.said_destroy p v hkind))

theorem balances_resume (st : Open (component T R)) (k : Point)
    (h : Agreed st.state st.kinds st.log) :
    (balances T R).Keeps st.state st.kinds st.log st.log
      ((component T R).resume st.views st.state k) := by
  cases k with
  | done => exact balances_keeps (Or.inr h)
  | terminate =>
      simp only [component]
      by_cases hended : st.state.hasEnded = true
      · rw [if_pos hended]
        exact balances_keeps (Or.inl ⟨_, rfl⟩)
      · rw [if_neg hended]
        exact balances_askBase h .cancel
  | destroying =>
      have hout := h.note (.out .destroy) rfl rfl fun _ _ => .out _
      exact balances_keeps (Or.inr { hout with })

theorem balances_reach (st : Open (component T R))
    (h : Open.Reach subscriptionCheck BalanceRules st) : (balances T R).Holds st :=
  (balances T R).holds_reach subscriptionCheck BalanceRules Agreed.init
    (fun st c _ hok _ hagreed => balances_call st c hok hagreed)
    (fun st p i o _ hok hkind hagreed => balances_said st p i o hok hkind hagreed)
    (fun st k _ _ hagreed _ => balances_resume st k hagreed) st h

/-- The checks that may fail: none is about a balance. -/
def Excused (msg : String) : Prop :=
  msg = useAfterFree ∨ msg = "OnSubscribe was never called"

theorem askBase_excused (s : FlatMapStream) (c : Call) (msg : String)
    (h : (s.askBase (T := T) (R := R) c).2 = .fail msg) : Excused msg := by
  unfold askBase at h
  split at h
  · exact Or.inr (Act.fail.inj h).symm
  · cases h

theorem request_excused (s : FlatMapStream) (n : Nat) (msg : String)
    (h : (s.request (T := T) (R := R) n).2 = .fail msg) : Excused msg := by
  unfold request at h
  dsimp only at h
  split at h
  · split at h
    · cases h
    · cases h
  · exact askBase_excused _ _ msg h

theorem onSubscribeCont_excused (s : FlatMapStream) (p : Nat) (msg : String)
    (h : (s.onSubscribeCont (T := T) (R := R) p).2 = .fail msg) : Excused msg := by
  unfold onSubscribeCont at h
  split at h
  · exact Or.inl (Act.fail.inj h).symm
  · dsimp only at h
    split at h
    · exact request_excused _ _ msg h
    · cases h

/-- The end of a continuation passes no check of a balance. -/
theorem onNextCont_excused (s : FlatMapStream) (e : StatusOr R) (hend : e.isEnd = true)
    (msg : String) (h : (s.onNextCont (T := T) e).2 = .fail msg) : Excused msg := by
  unfold onNextCont at h
  split at h
  · exact Or.inl (Act.fail.inj h).symm
  · rw [hend, Bool.not_true, if_neg Bool.false_ne_true] at h
    split at h
    · dsimp only at h
      split at h
      · exact request_excused _ _ msg h
      · cases h
    · cases h

theorem said_excused (st : Open (component T R)) (p : Nat) (i : Option T)
    (o : Signal (Published T R i)) (hok : BalanceRules st (.said p i o))
    (hkind : st.kinds[p]? = some i) (h : Agreed st.state st.kinds st.log) (msg : String)
    (hfail : ((component T R).said st.views st.state p i o).2 = .fail msg) : Excused msg := by
  cases i with
  | none =>
      cases o with
      | onSubscribe => cases hfail
      | onNext e =>
          cases e with
          | status status hs => cases hfail
          | value v =>
              simp only [component, onNext] at hfail
              split at hfail
              · cases hfail
              · cases hfail
      | destroy =>
          simp only [component, destructor, destroyed] at hfail
          split at hfail
          · split at hfail
            · cases hfail
            · cases hfail
          · cases hfail
  | some v =>
      cases o with
      | onSubscribe => exact onSubscribeCont_excused _ p msg hfail
      | onNext e =>
          cases hend : e.isEnd with
          | true => exact onNextCont_excused _ e hend msg hfail
          | false =>
              cases e with
              | value r =>
                  exact Or.inl ((balances_value h p v hkind hok.1 hok.2.1 r (hok.2.2 hend)).1
                    msg hfail)
              | status s hs =>
                  exact absurd (hend.symm.trans (StatusOr.isEnd_status s hs)) Bool.false_ne_true
      | destroy => cases hfail

theorem runs_excused (st : Open (component T R))
    (r : (component T R).State × Act Call (Signal R) (Option T) (component T R).Point)
    (h : Agreed st.state st.kinds st.log) (hruns : Open.Runs BalanceRules st r) (msg : String)
    (hfail : r.2 = .fail msg) : Excused msg := by
  cases hruns with
  | call c _ _ =>
      cases c with
      | subscribe => cases hfail
      | request n => exact request_excused _ n msg hfail
      | cancel => exact askBase_excused _ .cancel msg hfail
  | said p i o _ kind ok => exact said_excused st p i o ok kind h msg hfail
  | resume k _ =>
      cases k with
      | done => cases hfail
      | terminate =>
          simp only [component] at hfail
          split at hfail
          · exact Or.inl (Act.fail.inj hfail).symm
          · exact askBase_excused _ .cancel msg hfail
      | destroying => cases hfail

/-- The two balances agree, and what is made of them is exact. -/
structure Agree (st : Open (component T R)) : Prop where
  /-- No balance was found too small. -/
  checked : st.turn ≠ .failed "negative request balance"
  /-- The balances are the same whenever control is outside the stream. -/
  same : st.turn.isFailed = false → ∀ p, st.state.contSubscription = some p →
    st.state.contRequested.balance = st.state.requestBalance.balance
  /-- The continuation owes exactly what is outstanding. -/
  exact : st.turn.isFailed = false → ∀ p, st.state.contSubscription = some p →
    owing p st.log = outstanding st.log ∧ st.state.requestBalance = outstanding st.log
  /-- The difference for a request that comes in does not wrap. -/
  unwrapped : st.turn.isFailed = false → ∀ p n (s : FlatMapStream),
    st.state.contSubscription = some p →
    s = { st.state with requestBalance := st.state.requestBalance.add n } →
    s.contRequested.balance ≤ s.requestBalance.balance ∧
      s.delta = s.requestBalance.balance - s.contRequested.balance
  /-- Neither does the one for a continuation that is confirmed, which is the
      whole balance. -/
  whole : ∀ p (s : FlatMapStream),
    s = { st.state with contSubscription := some p, contRequested := .zero } →
    s.delta = st.state.requestBalance.balance

/-- Whatever the order and the nesting of the calls, the two balances agree
    whenever control is outside the stream. -/
theorem balances_agree (st : Open (component T R))
    (h : Open.Reach subscriptionCheck BalanceRules st) : Agree st := by
  have hagreed (hrun : st.turn.isFailed = false) : Agreed st.state st.kinds st.log := by
    rcases balances_reach st h with ⟨-, hcore, -⟩ | ⟨hfailed, -⟩
    · exact hcore
    · exact absurd (hrun.symm.trans hfailed) Bool.false_ne_true
  have hsame (hrun : st.turn.isFailed = false) (p : Nat)
      (hp : st.state.contSubscription = some p) :
      st.state.contRequested = st.state.requestBalance := by
    refine (hagreed hrun).agree ?_
    rw [hp]
    exact Option.some_ne_none p
  refine ⟨fun hfailed => ?_, fun hrun p hp => congrArg _ (hsame hrun p hp), fun hrun p hp => ?_,
    fun hrun p n s hp hs => ?_, fun p s hs => ?_⟩
  -- a check fails in the code of the stream or at the gate of a call
  · rcases h.failed _ hfailed with ⟨before, r, hbefore, hrun, hruns, hr⟩ | ⟨v, c, hgate⟩
    · rcases balances_reach before hbefore with ⟨-, hcore, -⟩ | ⟨hno, -⟩
      · rcases runs_excused before r hcore hruns _ hr with hmsg | hmsg
        · exact absurd hmsg (by decide)
        · exact absurd hmsg (by decide)
      · exact absurd (hrun.symm.trans hno) Bool.false_ne_true
    · exact absurd (subscriptionCheck_some v c _ hgate) (by decide)
  · rw [(hagreed hrun).owed p hp, hsame hrun p hp, (hagreed hrun).demand]
    exact ⟨rfl, rfl⟩
  · have hle : s.contRequested.balance ≤ s.requestBalance.balance := by
      have hmax := st.state.requestBalance.le_kMax
      rw [hs]
      simp only [hsame hrun p hp, RequestBalance.balance_add]
      omega
    exact ⟨hle, delta_eq s hle⟩
  · rw [delta_eq s (by rw [hs]; exact Nat.zero_le _), hs]
    exact Nat.sub_zero _

/-- A continuation is asked for an infinite demand, delivers two values and is
    done; the demand is asked of the next one. -/
def infiniteDemand : List (Move Call Bool (Option Nat) (fun i => Signal (Published Nat Nat i))) :=
  [ .call .subscribe, .said 0 none .onSubscribe, .call (.request kMax),
    .said 0 none (.onNext (.value 7)), .said 1 (some 7) .onSubscribe,
    .said 1 (some 7) (.onNext (.value 9)), .call (.request 3), .reply,
    .said 1 (some 7) (.onNext (.value 8)), .reply, .said 1 (some 7) (.onNext .done),
    .said 0 none (.onNext (.value 2)), .said 2 (some 2) .onSubscribe ]

theorem balances_agree_infinite : ∃ st : Open (component Nat Nat),
    Open.Reach subscriptionCheck BalanceRules st ∧ st.state.contSubscription = some 2 ∧
      (owing 2 st.log).balance = kMax ∧ Agree st := by
  rcases Open.exists_reach_of_play subscriptionCheck BalanceRules infiniteDemand
    (fun (st : Open (component Nat Nat)) => decide (st.state.contSubscription = some 2) &&
      decide ((owing 2 st.log).balance = kMax)) (by decide +kernel) with ⟨st, hst, htest⟩
  rw [Bool.and_eq_true, decide_eq_true_eq, decide_eq_true_eq] at htest
  exact ⟨st, hst, htest.1, htest.2, balances_agree st hst⟩

end FlatMapStream

end RxCppUniq
