import RxCppUniq.Flow.BufferChunks

/-!
# The Demand of a Buffer

`Buffer` asks for `size` values where the subscriber asks for a vector. The
product is one of two `size_t` and is taken modulo 2^64, in front of an addition
that stops at `kMax`. A request for so many vectors that the product does not
fit is turned into one for whatever is left of it, which may be nothing, and
`kMax`, which stands for infinitely many, into a finite one.

What the generator is asked for is the sum of the remainders. It is what the
subscriber asked for when all products fit, and by chance when the remainders
are infinite together.

## Main definitions

* `BufferDemand.Early`: The subscriber asks, and nothing is published yet.
* `BufferDemand.below`: The generator below.
* `BufferDemand.remainders`: What it is asked for.

## Theorems

* `BufferDemand.kept_iff`: When no demand is lost.
* `BufferDemand.stalls`: A request that is turned into nothing.
-/

namespace RxCppUniq

open Theory

namespace BufferDemand

variable {S T : Type} {size : Nat}

abbrev Requests (T : Type) := Log (List T) Unit (fun _ => T)

/-- The subscriber makes requests of any size, and the upstream has not
    published anything but its subscription. -/
def Early (st : Open (ChainingStream.component (ChainingFunc.buffer (T := T) size))) :
    Move Call Bool Unit (fun _ => Signal T) → Prop
  | .call c => match c with
    | .subscribe => st.log.isEmpty = true
    | .request n => subscribed st.log = true ∧ n ≤ kMax
    | .cancel => False
  | .said p _ s => match s with
    | .onSubscribe => confirmed p st.log = false
    | .onNext _ => False
    | .destroy => False
  | .reply => True
  | .view _ _ => False
  | .run => True

instance (st : Open (ChainingStream.component (ChainingFunc.buffer (T := T) size)))
    (m : Move Call Bool Unit (fun _ => Signal T)) : Decidable (Early st m) :=
  match m with
  | .call .subscribe => inferInstanceAs (Decidable (_ = _))
  | .call (.request _) => inferInstanceAs (Decidable (_ ∧ _))
  | .call .cancel => inferInstanceAs (Decidable False)
  | .said _ _ .onSubscribe => inferInstanceAs (Decidable (_ = _))
  | .said _ _ (.onNext _) => inferInstanceAs (Decidable False)
  | .said _ _ .destroy => inferInstanceAs (Decidable False)
  | .reply => inferInstanceAs (Decidable True)
  | .view _ _ => inferInstanceAs (Decidable False)
  | .run => inferInstanceAs (Decidable True)

/-- The generator below, when the requests in the log were made of it and it
    has not made an event yet. -/
def below (initial : S) : Requests T → GeneratingStream S
  | [] => { state := initial }
  | .ask _ (.request n) :: log =>
      (GeneratingStream.request (T := T) (below initial log) n).1
  | _ :: log => below initial log

/-- The sum of the products, each modulo 2^64. -/
def remainders (size : Nat) (log : Requests T) : Nat :=
  tally (fun n => size * n.demand % 2 ^ 64) log

/-- All products fit. -/
def Fits (size : Nat) (log : Requests T) : Prop :=
  ∀ n ∈ log, size * n.demand < 2 ^ 64

instance (log : Requests T) : Decidable (Fits size log) :=
  inferInstanceAs (Decidable (∀ n ∈ log, _))

section Sums

variable {log : Requests T}

@[simp] theorem remainders_cons (n : Entry (List T) Unit (fun _ => T)) (log : Requests T) :
    remainders size (n :: log) = remainders size log + size * n.demand % 2 ^ 64 := rfl

/-- Without overflow the remainders are the products. -/
theorem remainders_eq (h : Fits size log) : remainders size log = size * demand log := by
  induction log with
  | nil => exact (Nat.mul_zero size).symm
  | cons n log ih =>
      rw [remainders_cons, ih fun m hm => h m (List.mem_cons_of_mem n hm), demand_cons,
        Nat.mul_add, Nat.mod_eq_of_lt (h n List.mem_cons_self)]

/-- The demand is at least that of each entry. -/
theorem demand_le {n : Entry (List T) Unit (fun _ => T)} (h : n ∈ log) :
    n.demand ≤ demand log := by
  induction log with
  | nil => exact absurd h List.not_mem_nil
  | cons m log ih =>
      rw [demand_cons]
      rcases List.mem_cons.mp h with rfl | h
      · exact Nat.le_add_left _ _
      · exact Nat.le_trans (ih h) (Nat.le_add_right _ _)

/-- An overflow is only made up for when the remainders are infinite. -/
theorem min_remainders_iff : min kMax (remainders size log) = min kMax (size * demand log) ↔
    Fits size log ∨ kMax ≤ remainders size log := by
  have hkMax : kMax = 2 ^ 64 - 1 := rfl
  by_cases hfits : Fits size log
  · rw [remainders_eq hfits]
    exact ⟨fun _ => Or.inl hfits, fun _ => rfl⟩
  · have hlost : kMax ≤ size * demand log := by
      unfold Fits at hfits
      rw [not_forall] at hfits
      rcases hfits with ⟨n, hn⟩
      rw [Classical.not_imp, Nat.not_lt] at hn
      have hle := Nat.mul_le_mul_left size (demand_le hn.1)
      omega
    rw [Nat.min_eq_left hlost]
    constructor
    · intro h
      right
      omega
    · intro h
      have hinfinite := h.resolve_left hfits
      omega

end Sums

/-- What holds until the upstream publishes. -/
structure Inv (initial : S)
    (st : Open (ChainingStream.component (ChainingFunc.buffer (T := T) size))) : Prop where
  outside : st.turn = .outside
  points : ∀ f ∈ st.stack, f.2 = .done
  views : st.views = fun _ => false
  fresh : st.log = [] → st.kinds = []
  single : st.kinds.length ≤ 1
  base : subscribed st.log = true → st.state.baseSubscription = some 0
  balance : (below initial st.log).requested.balance = min kMax (remainders size st.log)

/-- A request adds to the balance. -/
theorem request_requested (u : GeneratingStream S) (n : Nat) :
    (GeneratingStream.request (T := T) u n).1.requested = u.requested.add n := by
  rw [GeneratingStream.request]
  by_cases hgenerating : u.generating = true
  · simp only [hgenerating, if_true]
  · simp only [hgenerating, Bool.false_eq_true, if_false]

namespace Inv

variable {initial : S}
  {st : Open (ChainingStream.component (ChainingFunc.buffer (T := T) size))}

/-- The subscriber asks for more, and the generator is asked for the
    remainder. -/
theorem request (h : Inv initial st) (n : Nat) (hsubscribed : subscribed st.log = true) :
    Inv initial (Open.perform subscriptionCheck { st with log := .call (.request n) :: st.log }
      (ChainingStream.request (ChainingFunc.buffer size) st.state n)) := by
  have hcode : ChainingStream.request (ChainingFunc.buffer (T := T) size) st.state n =
      (st.state, .ask 0 (.request (size * n % 2 ^ 64)) .done) := by
    rw [ChainingStream.request, h.base hsubscribed]
    rfl
  have hopen : subscriptionCheck (st.views 0) (.request (size * n % 2 ^ 64)) = none := by
    rw [h.views]
    exact subscriptionCheck_false _
  rw [hcode, Open.perform_ask subscriptionCheck { st with log := .call (.request n) :: st.log }
    st.state 0 _ .done hopen]
  constructor
  · exact rfl
  · intro f hf
    rcases List.mem_cons.mp hf with rfl | hf
    · rfl
    · exact h.points f hf
  · exact h.views
  · exact fun hnil => absurd hnil (List.cons_ne_nil _ _)
  · exact h.single
  · exact fun _ => h.base hsubscribed
  · have hzero : size * 0 % 2 ^ 64 = 0 := by rw [Nat.mul_zero, Nat.zero_mod]
    change (GeneratingStream.request (T := T) (below initial st.log) _).1.requested.balance =
      min kMax (remainders size st.log + size * n % 2 ^ 64 + size * 0 % 2 ^ 64)
    rw [request_requested, RequestBalance.balance_add, h.balance, hzero]
    omega

/-- Nothing that changes the balance. -/
theorem quiet (h : Inv initial st) (st' : Open (ChainingStream.component
    (ChainingFunc.buffer (T := T) size))) (houtside : st'.turn = .outside)
    (hpoints : ∀ f ∈ st'.stack, f ∈ st.stack ∨ f.2 = .done) (hviews : st'.views = st.views)
    (hfresh : st'.log = [] → st'.kinds = []) (hsingle : st'.kinds.length ≤ 1)
    (hbase : subscribed st'.log = true → st'.state.baseSubscription = some 0)
    (hbelow : below initial st'.log = below initial st.log)
    (hremainders : remainders size st'.log = remainders size st.log) : Inv initial st' where
  outside := houtside
  points f hf := (hpoints f hf).elim (h.points f) id
  views := hviews.trans h.views
  fresh := hfresh
  single := hsingle
  base := hbase
  balance := by rw [hbelow, hremainders, h.balance]

end Inv

/-- A call is waited for at the one point there is. -/
theorem mem_push {who : Callee}
    {stack : List (Callee × ChainingStream.Point ChainingFunc.BufferRest)}
    {f : Callee × ChainingStream.Point ChainingFunc.BufferRest} (h : f ∈ (who, .done) :: stack) :
    f ∈ stack ∨ f.2 = .done := by
  rcases List.mem_cons.mp h with rfl | h
  · exact Or.inr rfl
  · exact Or.inl h

/-- The invariant is kept. -/
theorem inv_reach (initial : S)
    (st : Open (ChainingStream.component (ChainingFunc.buffer (T := T) size)))
    (h : Open.Reach subscriptionCheck Early st) : Inv initial st := by
  have hzero : size * 0 % 2 ^ 64 = 0 := by rw [Nat.mul_zero, Nat.zero_mod]
  refine Open.Reach.induct (Inv initial) ?_ ?_ st h
  · exact ⟨rfl, fun f hf => absurd hf List.not_mem_nil, rfl, fun _ => rfl, Nat.zero_le 1,
      fun hno => absurd hno Bool.false_ne_true, rfl⟩
  · intro st st' _ ih hstep
    cases hstep with
    | call c turn _ ok =>
        cases c with
        | cancel => exact ok.elim
        | request n => exact ih.request n ok.1
        | subscribe =>
            have hlog : st.log = [] := List.isEmpty_iff.mp ok
            have hkinds := ih.fresh hlog
            refine ih.quiet _ rfl ?_ rfl ?_ ?_ ?_ rfl ?_
            · exact fun f hf => mem_push hf
            · exact fun hnil => absurd hnil (List.cons_ne_nil _ _)
            · change (st.kinds ++ [()]).length ≤ 1
              rw [hkinds]
              exact Nat.le_refl 1
            · intro hyes
              change subscribed st.log = true at hyes
              rw [hlog] at hyes
              exact absurd hyes Bool.false_ne_true
            · change remainders size st.log + size * 0 % 2 ^ 64 + size * 0 % 2 ^ 64 = _
              rw [hzero]
              rfl
    | said p i o turn kind ok =>
        cases o with
        | onNext e => exact ok.elim
        | destroy => exact ok.elim
        | onSubscribe =>
            have hp : p = 0 := by
              have hlt := (List.getElem?_eq_some_iff.mp kind).1
              have hsingle := ih.single
              omega
            refine ih.quiet _ rfl ?_ rfl ?_ ih.single ?_ rfl ?_
            · exact fun f hf => mem_push hf
            · exact fun hnil => absurd hnil (List.cons_ne_nil _ _)
            · exact fun _ => congrArg some hp
            · change remainders size st.log + size * 0 % 2 ^ 64 + size * 0 % 2 ^ 64 = _
              rw [hzero]
              rfl
    | reply who k rest turn top ok =>
        have hk : k = .done := ih.points (who, k) (top ▸ List.mem_cons_self)
        subst hk
        refine ih.quiet _ rfl ?_ rfl ih.fresh ih.single ih.base rfl rfl
        intro f hf
        exact Or.inl (top ▸ List.mem_cons_of_mem _ hf)
    | view p v turn ok => exact ok.elim
    | run k turn ok =>
        rw [ih.outside] at turn
        cases turn

/-- The generator is asked for as many values as fit in the vectors that the
    subscriber asked for if and only if no product overflows, or what is left
    of them is infinite all the same. -/
theorem kept_iff (size : Nat) (initial : S)
    (st : Open (ChainingStream.component (ChainingFunc.buffer (T := T) size)))
    (h : Open.Reach subscriptionCheck Early st) :
    (below initial st.log).requested.balance = min kMax (size * demand st.log) ↔
      Fits size st.log ∨ kMax ≤ remainders size st.log := by
  rw [(inv_reach initial st h).balance]
  exact min_remainders_iff

/-- Three requests. The second is infinite, and of its product 1 is missing,
    which the first makes up for. -/
theorem kept_infinite :
    ∃ st : Open (ChainingStream.component (ChainingFunc.buffer (T := Unit) 2)),
      (below () st.log).requested.balance = kMax ∧ demand st.log = kMax + 8 ∧
      ((below () st.log).requested.balance = min kMax (2 * demand st.log) ↔
        Fits 2 st.log ∨ kMax ≤ remainders 2 st.log) := by
  rcases Open.exists_reach_of_play
    (M := ChainingStream.component (ChainingFunc.buffer (T := Unit) 2)) subscriptionCheck Early
    [.call .subscribe, .said 0 () .onSubscribe, .call (.request 3), .reply, .reply, .reply,
      .call (.request kMax), .reply, .call (.request 5)]
    (fun st => decide ((below () st.log).requested.balance = kMax ∧ demand st.log = kMax + 8))
    (by decide +kernel) with ⟨st, hreach, htest⟩
  rcases of_decide_eq_true htest with ⟨hbalance, hdemand⟩
  exact ⟨st, hbalance, hdemand, kept_iff 2 () st hreach⟩

/-- Half of 2^64 vectors of two are requested, and the generator is asked for
    nothing. -/
theorem lost :
    ∃ st : Open (ChainingStream.component (ChainingFunc.buffer (T := Unit) 2)),
      Open.Reach subscriptionCheck Early st ∧ demand st.log = 2 ^ 63 ∧
      (below () st.log).requested.balance = 0 ∧ min kMax (2 * demand st.log) = kMax := by
  rcases Open.exists_reach_of_play
    (M := ChainingStream.component (ChainingFunc.buffer (T := Unit) 2)) subscriptionCheck Early
    [.call .subscribe, .said 0 () .onSubscribe, .call (.request (2 ^ 63))]
    (fun st => decide (demand st.log = 2 ^ 63 ∧ (below () st.log).requested.balance = 0 ∧
      min kMax (2 * demand st.log) = kMax)) (by decide +kernel) with ⟨st, hreach, htest⟩
  exact ⟨st, hreach, of_decide_eq_true htest⟩

/-- Where nothing is left of the product, the first request is answered by
    nothing, whatever there is to publish. -/
theorem stalls (source : Source T) (size n : Nat) (hnone : size * n % 2 ^ 64 = 0) :
    Linked.Settles subscriptionCheck (fun st => Linked.AtRest st ∧ received st.log = [])
      (Linked.call subscriptionCheck (Buffering.opened source size) (.request n)) := by
  have hrequest : (GeneratingStream.request { state := source.initial } 0 :
      GeneratingStream.Result source.State T) =
      ({ state := source.initial, generating := true }, .goto .generate) := rfl
  refine Buffering.call_request (u := { state := source.initial }) rfl rfl rfl ?_
  rw [hnone, hrequest, Linked.answer]
  refine .of_part (u := { state := source.initial, generating := true })
    ({ state := source.initial }, .ret) rfl rfl rfl ?_
  rw [Linked.answer]
  exact Buffering.settles_asked rfl ⟨⟨rfl, rfl⟩, rfl⟩

end BufferDemand

end RxCppUniq
