import RxCppUniq.Flow.MergeRounds
import RxCppUniq.Theory.Total

/-!
# Merge is Round Robin

What `MergeStream` delivers over value publishers: the first elements of all
upstreams, then all second elements, and so on, and then the end, as far as
they were requested. The requests may come at any time the subscriber has
control, also while an event is being delivered.

The state of the loop is its round and its place in the round. How often an
upstream has had its turn follows from them, and with it what its subscriber
holds. An upstream that is exhausted spends a turn on its end, and its further
turns are skipped.

Demand that has reached `kMax` is infinite, and everything is delivered then.

## Main definitions

* `MergeStream.turnsAt`: The turns an upstream has had.
* `MergeStream.deliveredBefore`: What was delivered before a turn.
* `MergeStream.Position`: What holds when the loop is about to take a turn.
* `MergeStream.Standing`: The invariant when the subscriber has control.
* `MergeStream.due`: What is to be delivered for the demand so far.

## Theorems

* `MergeStream.deliver_loop`: The loop of `MaybeDeliver` comes to an end.
* `MergeStream.round_robin`: The delivery is round robin.
* `MergeStream.infinite_demand`: More than was requested may be delivered.
-/

namespace RxCppUniq

open Theory

variable {ι : Type} {T : ι → Type}

namespace MergeStream

section Rounds

variable (upstream : List ((i : ι) × List (T i)))

/-- The turns the upstream at position `p` has had when place `c` is next in
    round `r`. -/
def turnsAt (r c p : Nat) : Nat :=
  if p < c then r + 1 else r

/-- What the turns before place `c` in round `r` deliver. -/
def deliveredBefore (r c : Nat) : List (Sigma T) :=
  (List.range r).flatMap (round upstream) ++ round (upstream.take c) r

/-- The round and the place of the next turn. -/
def nextRound (k r c : Nat) : Nat :=
  if c + 1 = k then r + 1 else r

def nextPlace (k c : Nat) : Nat :=
  if c + 1 = k then 0 else c + 1

theorem nextPlace_eq {k c : Nat} (h : c < k) : (c + 1) % k = nextPlace k c := by
  unfold nextPlace
  by_cases hk : c + 1 = k
  · rw [if_pos hk, hk, Nat.mod_self]
  · rw [if_neg hk, Nat.mod_eq_of_lt (by omega)]

theorem nextPlace_lt {k c : Nat} (h : c < k) : nextPlace k c < k := by
  rw [← nextPlace_eq h]
  exact Nat.mod_lt _ (by omega)

/-- The turns are counted through all rounds. -/
theorem next_position (k r c : Nat) :
    nextRound k r c * k + nextPlace k c = r * k + c + 1 := by
  unfold nextRound nextPlace
  by_cases hk : c + 1 = k
  · rw [if_pos hk, if_pos hk, Nat.add_mul, Nat.one_mul]
    omega
  · rw [if_neg hk, if_neg hk, Nat.add_assoc]

/-- The upstream whose turn it is has had one turn more afterwards. -/
theorem turnsAt_next {k p : Nat} (r c : Nat) (hp : p < k) :
    turnsAt (nextRound k r c) (nextPlace k c) p = if p = c then r + 1 else turnsAt r c p := by
  unfold turnsAt nextRound nextPlace
  by_cases hk : c + 1 = k
  · rw [if_pos hk, if_pos hk, if_neg (Nat.not_lt_zero p)]
    by_cases heq : p = c
    · rw [if_pos heq]
    · rw [if_neg heq, if_pos (by omega)]
  · rw [if_neg hk, if_neg hk]
    by_cases heq : p = c
    · rw [if_pos heq, if_pos (by omega)]
    · have hiff : p < c + 1 ↔ p < c := by omega
      rw [if_neg heq]
      simp only [hiff]

@[simp] theorem turnsAt_self (r c : Nat) : turnsAt r c c = r :=
  if_neg (Nat.lt_irrefl c)

@[simp] theorem round_nil (r : Nat) : round ([] : List ((i : ι) × List (T i))) r = [] := rfl

/-- What one turn more delivers. -/
theorem deliveredBefore_next (r c : Nat) (x : (i : ι) × List (T i)) (hx : upstream[c]? = some x) :
    deliveredBefore upstream (nextRound upstream.length r c) (nextPlace upstream.length c) =
      deliveredBefore upstream r c ++ (x.2[r]?.map (Sigma.mk x.1)).toList := by
  have hround : round (upstream.take (c + 1)) r =
      round (upstream.take c) r ++ (x.2[r]?.map (Sigma.mk x.1)).toList := by
    rw [List.take_add_one, hx, Option.toList_some, round, List.filterMap_append, round]
    cases hvalue : x.2[r]? <;>
      simp only [List.filterMap_cons, hvalue, Option.map_none, Option.map_some,
        List.filterMap_nil, Option.toList_none, Option.toList_some]
  unfold deliveredBefore nextRound nextPlace
  by_cases hk : c + 1 = upstream.length
  · rw [hk, List.take_length] at hround
    rw [if_pos hk, if_pos hk, List.range_succ, List.flatMap_append, List.flatMap_singleton,
      List.take_zero, hround, round_nil, List.append_nil, List.append_assoc]
  · rw [if_neg hk, if_neg hk, hround, List.append_assoc]

theorem le_longest {p : Nat} {x : (i : ι) × List (T i)} (hx : upstream[p]? = some x) :
    x.2.length ≤ longest upstream := by
  have hmem := List.mem_of_getElem? hx
  unfold longest
  clear hx
  induction upstream with
  | nil => exact absurd hmem List.not_mem_nil
  | cons y ys ih =>
      rw [List.map_cons, List.foldr_cons]
      rcases List.mem_cons.mp hmem with rfl | hmem
      · exact Nat.le_max_left _ _
      · exact Nat.le_trans (ih hmem) (Nat.le_max_right _ _)

/-- A round of upstreams the first of which has so many elements. -/
theorem length_round_cons (x : (i : ι) × List (T i)) (n : Nat) :
    (round (x :: upstream) n).length =
      (if n < x.2.length then 1 else 0) + (round upstream n).length := by
  unfold round
  by_cases hn : n < x.2.length
  · rw [if_pos hn, List.filterMap_cons, List.getElem?_eq_getElem hn]
    simp only [Option.map_some, List.length_cons]
    omega
  · rw [if_neg hn, List.filterMap_cons, List.getElem?_eq_none (by omega)]
    simp only [Option.map_none, Nat.zero_add]

/-- So many rounds have at least `n` elements from an upstream with `n`. -/
theorem length_rounds_cons (x : (i : ι) × List (T i)) (n : Nat) :
    ((List.range n).flatMap (round (x :: upstream))).length =
      min n x.2.length + ((List.range n).flatMap (round upstream)).length := by
  induction n with
  | zero => simp only [List.range_zero, List.flatMap_nil, List.length_nil, Nat.zero_min]
  | succ n ih =>
      rw [List.range_succ, List.flatMap_append, List.flatMap_append, List.length_append,
        List.length_append, ih, List.flatMap_singleton, List.flatMap_singleton, length_round_cons]
      by_cases hn : n < x.2.length
      · rw [if_pos hn]
        omega
      · rw [if_neg hn]
        omega

/-- Nothing is lost and nothing is duplicated. -/
theorem length_interleaved :
    (interleaved upstream).length = total (fun x => x.2.length) upstream := by
  have hrounds : ∀ n, (∀ x ∈ upstream, x.2.length ≤ n) →
      ((List.range n).flatMap (round upstream)).length =
        total (fun x => x.2.length) upstream := by
    intro n hn
    induction upstream with
    | nil =>
        rw [total_nil, List.length_eq_zero_iff, List.flatMap_eq_nil_iff]
        exact fun m _ => round_nil m
    | cons x upstream ih =>
        rw [length_rounds_cons, ih fun y hy => hn y (List.mem_cons_of_mem x hy),
          Nat.min_eq_right (hn x List.mem_cons_self), total_cons]
  refine hrounds _ fun x hx => ?_
  rcases List.getElem?_of_mem hx with ⟨p, hp⟩
  exact le_longest upstream hp

/-- There is nothing left in a round after the longest list. -/
theorem round_eq_nil (l : List ((i : ι) × List (T i))) (r : Nat)
    (h : ∀ x ∈ l, x.2.length ≤ r) : round l r = [] := by
  rw [round, List.filterMap_eq_nil_iff]
  intro x hx
  rw [List.getElem?_eq_none (h x hx), Option.map_none]

/-- After the longest list the rounds deliver nothing. -/
theorem deliveredBefore_of_le (r c : Nat) (h : ∀ x ∈ upstream, x.2.length ≤ r) :
    deliveredBefore upstream r c = interleaved upstream := by
  have hle : longest upstream ≤ r := by
    unfold longest
    clear c
    induction upstream with
    | nil => exact Nat.zero_le r
    | cons y ys ih =>
        rw [List.map_cons, List.foldr_cons]
        exact Nat.max_le.mpr ⟨h y List.mem_cons_self,
          ih fun x hx => h x (List.mem_cons_of_mem y hx)⟩
  have hrest : ((List.range (r - longest upstream)).map (longest upstream + ·)).flatMap
      (round upstream) = [] := by
    rw [List.flatMap_eq_nil_iff]
    intro n hn
    rcases List.mem_map.mp hn with ⟨m, -, rfl⟩
    refine round_eq_nil upstream _ fun x hx => ?_
    rcases List.getElem?_of_mem hx with ⟨p, hp⟩
    exact Nat.le_trans (le_longest upstream hp) (Nat.le_add_right _ _)
  unfold deliveredBefore interleaved
  rw [round_eq_nil _ r fun x hx => h x (List.mem_of_mem_take hx), List.append_nil,
    ← Nat.add_sub_cancel' hle, List.range_add, List.flatMap_append, hrest, List.append_nil]

/-- Nothing is delivered out of order. -/
theorem deliveredBefore_prefix_interleaved (r c : Nat) :
    deliveredBefore upstream r c <+: interleaved upstream := by
  by_cases hr : r < longest upstream
  · unfold deliveredBefore interleaved
    have hsplit : longest upstream = r + (longest upstream - r - 1 + 1) := by omega
    rw [hsplit, List.range_add, List.flatMap_append]
    refine (List.prefix_append_right_inj _).mpr ?_
    rw [List.range_succ_eq_map, List.map_cons, List.flatMap_cons, Nat.add_zero]
    exact ((List.take_prefix c upstream).filterMap _).trans (List.prefix_append _ _)
  · have hall := deliveredBefore_of_le upstream r c fun x hx => by
      rcases List.getElem?_of_mem hx with ⟨p, hp⟩
      exact Nat.le_trans (le_longest upstream hp) (Nat.le_of_not_lt hr)
    exact hall ▸ List.prefix_refl _

end Rounds

section Turn

variable {upstream : List ((i : ι) × List (T i))} {r c : Nat} {x : (i : ι) × List (T i)}
  {subscribers subscribers' : List (MergeUpstreamSubscriber (Sigma T))}
  {parts parts' : List (ValueStream T)}

/-- The upstream whose turn it is has one turn more, all others are as they
    were. -/
theorem Sides.turn (h : Sides upstream upstream.length (turnsAt r c) subscribers parts)
    (hx : upstream[c]? = some x) (hlength : subscribers'.length = subscribers.length)
    (hcount : parts'.length = parts.length)
    (hsubscriber : subscribers'[c]? = some (expected x c (r + 1)))
    (hpart : parts'[c]? = some (ValueStream.after x (min (r + 1) x.2.length)))
    (hother : ∀ p, p ≠ c → subscribers'[p]? = subscribers[p]? ∧ parts'[p]? = parts[p]?) :
    Sides upstream upstream.length
      (turnsAt (nextRound upstream.length r c) (nextPlace upstream.length c))
      subscribers' parts' where
  length := hlength.trans h.length
  count := hcount.trans h.count
  subscriber p y hy hp := by
    rw [turnsAt_next r c hp]
    by_cases hpc : p = c
    · subst hpc
      rw [hx, Option.some.injEq] at hy
      rw [if_pos rfl, hsubscriber, hy]
    · rw [if_neg hpc, (hother p hpc).1]
      exact h.subscriber p y hy hp
  part p y hy := by
    have hp : p < upstream.length := (List.getElem?_eq_some_iff.mp hy).1
    rw [turnsAt_next r c hp]
    by_cases hpc : p = c
    · subst hpc
      rw [hx, Option.some.injEq] at hy
      rw [if_pos rfl, hpart, if_pos hp, hy]
    · rw [if_neg hpc, (hother p hpc).2]
      exact h.part p y hy

/-- The turn of an upstream whose end has been taken is skipped. -/
theorem Sides.skip (h : Sides upstream upstream.length (turnsAt r c) subscribers parts)
    (hx : upstream[c]? = some x) (hover : x.2.length < r) :
    Sides upstream upstream.length
      (turnsAt (nextRound upstream.length r c) (nextPlace upstream.length c)) subscribers
      parts := by
  have hc : c < upstream.length := (List.getElem?_eq_some_iff.mp hx).1
  refine h.turn hx rfl rfl ?_ ?_ fun p _ => ⟨rfl, rfl⟩
  · rw [h.subscriber c x hx hc, turnsAt_self, expected, if_neg (by omega), expected,
      if_neg (by omega)]
  · rw [h.part c x hx, if_pos hc, turnsAt_self, Nat.min_eq_right (by omega),
      Nat.min_eq_right (by omega)]

/-- The end of an upstream is taken. -/
theorem Sides.finish (h : Sides upstream upstream.length (turnsAt r c) subscribers parts)
    (hx : upstream[c]? = some x) (hend : x.2.length = r) :
    Sides upstream upstream.length
      (turnsAt (nextRound upstream.length r c) (nextPlace upstream.length c))
      (subscribers.set c { expected x c r with next := none, attached := false }) parts := by
  have hc : c < upstream.length := (List.getElem?_eq_some_iff.mp hx).1
  refine h.turn hx (List.length_set ..) rfl ?_ ?_ fun p hp =>
    ⟨List.getElem?_set_ne (Ne.symm hp), rfl⟩
  · rw [List.getElem?_set_self (by rw [h.length]; exact hc), expected, if_pos (by omega), expected,
      if_neg (by omega)]
    simp only [hend, Nat.lt_irrefl, decide_false]
  · rw [h.part c x hx, if_pos hc, turnsAt_self, Nat.min_eq_right (by omega),
      Nat.min_eq_right (by omega)]

/-- A value of an upstream is taken, and the next event is there. -/
theorem Sides.take (h : Sides upstream upstream.length (turnsAt r c) subscribers parts)
    (hx : upstream[c]? = some x) (hvalue : r < x.2.length) :
    Sides upstream upstream.length
      (turnsAt (nextRound upstream.length r c) (nextPlace upstream.length c))
      (subscribers.set c { expected x c r with
        next := some (eventOf x (r + 1)), wrapped := true && r + 1 < x.2.length })
      (parts.set c (ValueStream.after x (r + 1))) := by
  have hc : c < upstream.length := (List.getElem?_eq_some_iff.mp hx).1
  refine h.turn hx (List.length_set ..) (List.length_set ..) ?_ ?_ fun p hp =>
    ⟨List.getElem?_set_ne (Ne.symm hp), List.getElem?_set_ne (Ne.symm hp)⟩
  · rw [List.getElem?_set_self (by rw [h.length]; exact hc), expected, if_pos (by omega), expected,
      if_pos (by omega)]
    simp only [Bool.true_and]
  · rw [List.getElem?_set_self (by rw [h.count]; exact hc), Nat.min_eq_left (by omega)]

/-- Some upstream has not had its end taken. -/
def Live (upstream : List ((i : ι) × List (T i))) (r c : Nat) : Prop :=
  ∃ (p : Nat) (x : (i : ι) × List (T i)), upstream[p]? = some x ∧ turnsAt r c p ≤ x.2.length

/-- It has not if the stream has a pointer to some subscriber. -/
theorem Sides.all_detached (h : Sides upstream upstream.length (turnsAt r c) subscribers parts) :
    subscribers.all (fun u => !u.attached) = true ↔ ¬Live upstream r c := by
  rw [List.all_eq_true]
  constructor
  · rintro hall ⟨p, y, hy, hturns⟩
    have hp : p < upstream.length := (List.getElem?_eq_some_iff.mp hy).1
    have hdetached := hall _ (List.mem_of_getElem? (h.subscriber p y hy hp))
    rw [expected, if_pos hturns] at hdetached
    exact absurd hdetached Bool.false_ne_true
  · intro hnot u hu
    rcases List.getElem?_of_mem hu with ⟨p, hp⟩
    have hlt : p < upstream.length := by
      rw [← h.length]
      exact (List.getElem?_eq_some_iff.mp hp).1
    have hy := List.getElem?_eq_getElem hlt
    rw [h.subscriber p _ hy hlt, Option.some.injEq] at hp
    have hturns : ¬turnsAt r c p ≤ upstream[p].2.length := fun hle => hnot ⟨p, _, hy, hle⟩
    rw [← hp, expected, if_neg hturns]
    rfl

/-- Nothing holds the subscribers when all ends have been taken. -/
theorem Sides.gone (h : Sides upstream upstream.length (turnsAt r c) subscribers parts)
    (hnot : ¬Live upstream r c) : ∀ u ∈ subscribers, u.alive = false := by
  intro u hu
  rcases List.getElem?_of_mem hu with ⟨p, hp⟩
  have hlt : p < upstream.length := by
    rw [← h.length]
    exact (List.getElem?_eq_some_iff.mp hp).1
  have hy := List.getElem?_eq_getElem hlt
  rw [h.subscriber p _ hy hlt, Option.some.injEq] at hp
  have hturns : ¬turnsAt r c p ≤ upstream[p].2.length := fun hle => hnot ⟨p, _, hy, hle⟩
  rw [← hp, expected, if_neg hturns]
  rfl

/-- A turn that takes no end leaves some upstream. -/
theorem Live.next (h : Live upstream r c) (hx : upstream[c]? = some x) (hend : x.2.length ≠ r) :
    Live upstream (nextRound upstream.length r c) (nextPlace upstream.length c) := by
  rcases h with ⟨p, y, hy, hturns⟩
  refine ⟨p, y, hy, ?_⟩
  have hp : p < upstream.length := (List.getElem?_eq_some_iff.mp hy).1
  rw [turnsAt_next r c hp]
  by_cases hpc : p = c
  · subst hpc
    rw [hx, Option.some.injEq] at hy
    rw [turnsAt_self, ← hy] at hturns
    rw [if_pos rfl, ← hy]
    omega
  · rw [if_neg hpc]
    exact hturns

/-- When all ends have been taken all values have been delivered. -/
theorem deliveredBefore_of_not_live (h : ¬Live upstream r c) :
    deliveredBefore upstream r c = interleaved upstream := by
  refine deliveredBefore_of_le upstream r c fun x hx => ?_
  rcases List.getElem?_of_mem hx with ⟨p, hp⟩
  by_contra hlt
  refine h ⟨p, x, hp, ?_⟩
  unfold turnsAt
  by_cases hpc : p < c
  · rw [if_pos hpc]
    omega
  · rw [if_neg hpc]
    omega

/-- Some upstream has not had its end taken only up to the round after the
    longest list. -/
theorem Live.le_longest (h : Live upstream r c) : r ≤ longest upstream := by
  rcases h with ⟨p, y, hy, hturns⟩
  have hle := MergeStream.le_longest upstream hy
  unfold turnsAt at hturns
  by_cases hpc : p < c
  · rw [if_pos hpc] at hturns
    omega
  · rw [if_neg hpc] at hturns
    omega

end Turn

section Loop

variable (upstream : List ((i : ι) × List (T i)))

/-- What was asked for is delivered or still owed, unless it was infinite. -/
def Balanced (b : RequestBalance) (log : Log (Sigma T) ι T) : Prop :=
  if unlimited log then b.balance = kMax else b.balance + values (received log) = demand log

/-- What holds when place `c` in round `r` is next. -/
structure Position (r c : Nat) (s : MergeStream (Sigma T)) (parts : List (ValueStream T))
    (log : Log (Sigma T) ι T) : Prop where
  sides : Sides upstream upstream.length (turnsAt r c) s.upstreamSubscribers parts
  place : c < upstream.length
  currentIndex : s.currentIndex = c
  hasEnded : s.hasEnded = false
  selfLock : s.selfLock = true
  available : 0 < s.availableBalance.balance
  live : Live upstream r c
  received : received log = (deliveredBefore upstream r c).map .value
  balanced : Balanced s.requestBalance log
  subscribed : subscribed log = true

/-- What holds when the end has been delivered. -/
structure Complete (s : MergeStream (Sigma T)) (log : Log (Sigma T) ι T) : Prop where
  received : received log = published upstream
  demand : unlimited log = false → (published upstream).length ≤ demand log
  delivering : s.delivering = true
  gone : ∀ u ∈ s.upstreamSubscribers, u.alive = false
  subscribed : subscribed log = true

/-- Where the calls of the subscriber come from: it is in `OnSubscribe`, while
    the pointer returned by `Create` is alive, or nothing has been called. -/
inductive Base {L : Type} : List (Linked.Frame (Point (Sigma T)) L) → Bool → Prop where
  | rest : Base [] false
  | confirming : Base [.own .confirmed, .env] true

variable (fits : upstream.length < 2 ^ 31)

/-- The invariant when the subscriber has control. -/
inductive Standing : Merging T (valuePublisher upstream fits) → Prop where
  | fresh : Standing { state := {}, parts := upstream.map fun x => ValueStream.before x 0 }
  | waiting (st : Merging T (valuePublisher upstream fits)) (r c : Nat)
      (base : Base st.stack st.state.created)
      (position : Position upstream r c st.state st.parts st.log)
      (idle : st.state.delivering = false)
      (balance : st.state.requestBalance.balance = 0) : Standing st
  | delivered (st : Merging T (valuePublisher upstream fits)) (r c : Nat)
      (rest : List (Linked.Frame (Point (Sigma T)) GeneratingStream.Point))
      (base : Base rest st.state.created) (stack : st.stack = .own .delivered :: .env :: rest)
      (position : Position upstream r c st.state st.parts st.log)
      (delivering : st.state.delivering = true) : Standing st
  | finishing (st : Merging T (valuePublisher upstream fits))
      (rest : List (Linked.Frame (Point (Sigma T)) GeneratingStream.Point))
      (base : Base rest st.state.created) (stack : st.stack = .own .finished :: .env :: rest)
      (complete : Complete upstream st.state st.log) (hasEnded : st.state.hasEnded = false) :
      Standing st
  | past (st : Merging T (valuePublisher upstream fits))
      (stack : st.stack = [.own .confirmed, .env]) (complete : Complete upstream st.state st.log)
      (hasEnded : st.state.hasEnded = false) (selfLock : st.state.selfLock = false)
      (created : st.state.created = true) : Standing st
  | ended (st : Merging T (valuePublisher upstream fits))
      (stack : st.stack = [] ∨ st.stack = [.own .done, .env])
      (complete : Complete upstream st.state st.log) (hasEnded : st.state.hasEnded = true) :
      Standing st

variable {fits}

/-- What is left to be delivered, what is left on the stack, and whether the
    stream is left to be destroyed. -/
def remaining (st : Merging T (valuePublisher upstream fits)) : Nat :=
  4 * ((published upstream).length - (received st.log).length) + st.stack.length +
    if st.state.hasEnded then 0 else 2

variable {upstream}

/-- Calls between the stream and its upstreams do not change the position. -/
theorem Position.inner {r c : Nat} {s : MergeStream (Sigma T)} {parts : List (ValueStream T)}
    {log log' : Log (Sigma T) ι T} (h : Position upstream r c s parts log)
    (hinner : Inner log log') : Position upstream r c s parts log' where
  sides := h.sides
  place := h.place
  currentIndex := h.currentIndex
  hasEnded := h.hasEnded
  selfLock := h.selfLock
  available := h.available
  live := h.live
  received := hinner.received.trans h.received
  balanced := by
    rw [Balanced, hinner.unlimited, hinner.received, hinner.demand]
    exact h.balanced
  subscribed := hinner.subscribed.trans h.subscribed

/-- A value is delivered. -/
theorem Balanced.deliver {b b' : RequestBalance} {log : Log (Sigma T) ι T} (h : Balanced b log)
    (hremove : b.remove 1 = some b') (v : Sigma T) :
    Balanced b' (.out (.onNext (.value v)) :: log) := by
  have hreceived : received (.out (.onNext (.value v)) :: log) = received log ++ [.value v] := by
    rw [received_cons]
    rfl
  unfold Balanced at h ⊢
  rw [unlimited_quiet _ _ rfl, hreceived, demand_cons, values_append, values_singleton]
  cases hunlimited : unlimited log with
  | true =>
      rw [hunlimited, if_pos rfl] at h
      rw [RequestBalance.remove_kMax b 1 h, Option.some.injEq] at hremove
      rw [if_pos rfl, ← hremove, h]
  | false =>
      rw [hunlimited, if_neg Bool.false_ne_true] at h
      have hlt := outstanding_lt log hunlimited
      have hbalance := RequestBalance.remove_of_lt b b' 1 (by omega) hremove
      simp only [Bool.false_eq_true, if_false, StatusOr.isEnd_value, Entry.demand, Nat.add_zero]
      omega

/-- More is requested. -/
theorem Balanced.request {b : RequestBalance} {log : Log (Sigma T) ι T} (h : Balanced b log)
    (n : Nat) : Balanced (b.add n) (.call (.request n) :: log) := by
  have hreceived : received (.call (.request n) :: log) = received log := by
    rw [received_cons]
    exact List.append_nil _
  have hdemand : demand (.call (.request n) :: log) = demand log + n := demand_cons _ _
  have hadd := RequestBalance.balance_add b n
  cases hunlimited : unlimited log with
  | true =>
      have hnew : unlimited (.call (.request n) :: log) = true := by
        rw [unlimited_cons, hunlimited, Bool.true_or]
      rw [Balanced, hunlimited, if_pos rfl] at h
      rw [Balanced, hnew, if_pos rfl]
      omega
  | false =>
      have hnew : unlimited (.call (.request n) :: log) =
          decide (kMax ≤ demand log - values (received log) + n) := by
        rw [unlimited_cons, hunlimited, Bool.false_or]
        rfl
      rw [Balanced, hunlimited, if_neg Bool.false_ne_true] at h
      rw [Balanced, hnew, hreceived, hdemand]
      by_cases hinfinite : kMax ≤ demand log - values (received log) + n
      · rw [if_pos (decide_eq_true hinfinite)]
        omega
      · rw [if_neg (by rwa [decide_eq_true_eq])]
        omega

variable {r c : Nat} {x : (i : ι) × List (T i)} {s : MergeStream (Sigma T)}
  {parts : List (ValueStream T)} {log : Log (Sigma T) ι T}

/-- The subscriber whose turn it is. -/
theorem Position.subscriber (h : Position upstream r c s parts log) (hx : upstream[c]? = some x) :
    s.upstreamSubscribers[c]? = some (expected x c r) := by
  rw [h.sides.subscriber c x hx h.place, turnsAt_self]

/-- One round of the loop, where there is demand. -/
theorem Position.deliver (h : Position upstream r c s parts log) (hx : upstream[c]? = some x)
    (hbalance : 0 < s.requestBalance.balance) :
    (s.deliver : Result ι (Sigma T)) =
      if !(expected x c r).attached || !(expected x c r).hasNext then
        ({ s with currentIndex := nextPlace upstream.length c }, .goto .deliver)
      else
        { s with currentIndex := nextPlace upstream.length c }.consumeNext c (expected x c r) := by
  have hcondition : s.loopCondition = true := by
    rw [loopCondition, decide_eq_true hbalance, decide_eq_true h.available]
    rfl
  rw [MergeStream.deliver, if_neg (by rw [h.hasEnded]; exact Bool.false_ne_true),
    if_pos hcondition]
  simp only [h.currentIndex, h.sides.length, nextPlace_eq h.place, h.subscriber hx]

/-- The event that a subscriber holds is taken from it. -/
def taken (s : MergeStream (Sigma T)) (k c : Nat) (u : MergeUpstreamSubscriber (Sigma T)) :
    MergeStream (Sigma T) :=
  ({ s with currentIndex := nextPlace k c }.setUpstream c u).addAvailable (-1)

/-- After the event was taken the next one arrives. -/
def refilled (s : MergeStream (Sigma T)) (k c r : Nat) (x : (i : ι) × List (T i)) :
    MergeStream (Sigma T) :=
  ((taken s k c { expected x c r with next := none }).setUpstream c { expected x c r with
    next := some (eventOf x (r + 1))
    wrapped := (expected x c r).wrapped && r + 1 < x.2.length }).addAvailable 1

theorem available_pos (s : MergeStream (Sigma T)) (diff : Int) (h : 0 < sizeT diff) :
    0 < (s.addAvailable diff).availableBalance.balance := by
  have hadd := RequestBalance.balance_add s.availableBalance (sizeT diff)
  have hpos : 0 < kMax := by decide
  change 0 < (s.availableBalance.add (sizeT diff)).balance
  omega

/-- The turn of an upstream whose end has been taken is skipped. -/
theorem Position.deliver_skip (h : Position upstream r c s parts log)
    (hx : upstream[c]? = some x) (hbalance : 0 < s.requestBalance.balance)
    (hover : x.2.length < r) :
    (s.deliver : Result ι (Sigma T)) =
      ({ s with currentIndex := nextPlace upstream.length c }, .goto .deliver) := by
  rw [h.deliver hx hbalance, if_pos]
  rw [expected, if_neg (by omega)]
  rfl

/-- The end of an upstream is taken, and it is not the last. -/
theorem Position.deliver_end (h : Position upstream r c s parts log)
    (hx : upstream[c]? = some x) (hbalance : 0 < s.requestBalance.balance)
    (hend : x.2.length = r) :
    (s.deliver : Result ι (Sigma T)) =
      (taken s upstream.length c { expected x c r with next := none }).upstreamEnded c
        { expected x c r with next := none } .done := by
  have hholds : expected x c r = ⟨some .done, some c, true, false⟩ := by
    rw [expected, if_pos (by omega), eventOf, valueGenerator_of_le (by omega)]
    simp only [hend, Nat.lt_irrefl, decide_false]
    rfl
  rw [h.deliver hx hbalance, if_neg, hholds]
  · rfl
  · rw [hholds]
    exact Bool.false_ne_true

/-- A value is taken, and the next event is asked for. -/
theorem Position.deliver_value (h : Position upstream r c s parts log)
    (hx : upstream[c]? = some x) (hbalance : 0 < s.requestBalance.balance)
    (hvalue : r < x.2.length) :
    (s.deliver : Result ι (Sigma T)) =
      (taken s upstream.length c { expected x c r with next := none },
        .ask c (.request 1) (.consumed (.value ⟨x.1, x.2[r]⟩))) := by
  have hholds : expected x c r = ⟨some (.value ⟨x.1, x.2[r]⟩), some c, true, true⟩ := by
    rw [expected, if_pos (by omega), eventOf, valueGenerator_of_lt hvalue, decide_eq_true hvalue]
    rfl
  rw [h.deliver hx hbalance, if_neg, hholds]
  · rfl
  · rw [hholds]
    exact Bool.false_ne_true

/-- The last end is delivered when no upstream is left. -/
theorem Position.upstreamEnded (h : Position upstream r c s parts log)
    (hx : upstream[c]? = some x) (hend : x.2.length = r) (ended : Bool)
    (hended : ended = true ↔
      ¬Live upstream (nextRound upstream.length r c) (nextPlace upstream.length c)) :
    ((taken s upstream.length c { expected x c r with next := none }).upstreamEnded c
        { expected x c r with next := none } .done : Result ι (Sigma T)) =
      (taken s upstream.length c { expected x c r with next := none, attached := false },
        if ended then .out (.onNext .done) .finished else .goto .deliver) := by
  have hset : (taken s upstream.length c { expected x c r with next := none }).setUpstream c
      { expected x c r with next := none, attached := false } =
      taken s upstream.length c { expected x c r with next := none, attached := false } := by
    simp only [taken, setUpstream, addAvailable, List.set_set]
  have hall : (taken s upstream.length c
      { expected x c r with next := none, attached := false }).upstreamSubscribers.all
        (fun u => !u.attached) = ended := by
    rw [Bool.eq_iff_iff, hended]
    exact (h.sides.finish hx hend).all_detached
  have herror : (StatusOr.done : StatusOr (Sigma T)).isError = false := rfl
  rw [MergeStream.upstreamEnded]
  simp only [hset, hall, herror, Bool.false_eq_true, if_false]
  cases ended <;> rfl

/-- The position after the turn of an upstream whose end has been taken. -/
theorem Position.skip (h : Position upstream r c s parts log) (hx : upstream[c]? = some x)
    (hover : x.2.length < r) :
    Position upstream (nextRound upstream.length r c) (nextPlace upstream.length c)
      { s with currentIndex := nextPlace upstream.length c } parts log where
  sides := h.sides.skip hx hover
  place := nextPlace_lt h.place
  currentIndex := rfl
  hasEnded := h.hasEnded
  selfLock := h.selfLock
  available := h.available
  live := h.live.next hx (by omega)
  received := by
    rw [deliveredBefore_next upstream r c x hx, List.getElem?_eq_none (by omega), Option.map_none,
      Option.toList_none, List.append_nil]
    exact h.received
  balanced := h.balanced
  subscribed := h.subscribed

/-- The position after an end was taken. -/
theorem Position.finish (h : Position upstream r c s parts log) (hx : upstream[c]? = some x)
    (hend : x.2.length = r)
    (hlive : Live upstream (nextRound upstream.length r c) (nextPlace upstream.length c)) :
    Position upstream (nextRound upstream.length r c) (nextPlace upstream.length c)
      (taken s upstream.length c { expected x c r with next := none, attached := false })
      parts log where
  sides := h.sides.finish hx hend
  place := nextPlace_lt h.place
  currentIndex := rfl
  hasEnded := h.hasEnded
  selfLock := h.selfLock
  available := available_pos _ (-1) (by decide)
  live := hlive
  received := by
    rw [deliveredBefore_next upstream r c x hx, List.getElem?_eq_none (by omega), Option.map_none,
      Option.toList_none, List.append_nil]
    exact h.received
  balanced := h.balanced
  subscribed := h.subscribed

/-- Only values have been received. -/
theorem Position.values_received (h : Position upstream r c s parts log) :
    values (RxCppUniq.received log) = (RxCppUniq.received log).length := by
  refine values_eq_length _ fun e he => ?_
  rw [h.received] at he
  rcases List.mem_map.mp he with ⟨v, -, rfl⟩
  rfl

/-- Before the end not everything has been received. -/
theorem Position.received_lt (h : Position upstream r c s parts log) :
    (RxCppUniq.received log).length < (published upstream).length := by
  have hle := (deliveredBefore_prefix_interleaved upstream r c).length_le
  rw [h.received, List.length_map, published, List.length_append, List.length_map,
    List.length_singleton]
  omega

/-- All that is published has been received when the last end is delivered. -/
theorem Position.complete (h : Position upstream r c s parts log) (hx : upstream[c]? = some x)
    (hend : x.2.length = r) (hbalance : 0 < s.requestBalance.balance)
    (hdelivering : s.delivering = true)
    (hlive : ¬Live upstream (nextRound upstream.length r c) (nextPlace upstream.length c)) :
    Complete upstream
      (taken s upstream.length c { expected x c r with next := none, attached := false })
      (.out (.onNext .done) :: log) where
  -- no turn is left, so everything has been delivered
  received := by
    have hall := deliveredBefore_of_not_live hlive
    rw [deliveredBefore_next upstream r c x hx, List.getElem?_eq_none (by omega), Option.map_none,
      Option.toList_none, List.append_nil] at hall
    rw [received_cons, h.received, hall]
    rfl
  demand := by
    intro hunlimited
    rw [unlimited_quiet _ _ rfl] at hunlimited
    have hbalanced := h.balanced
    have hvalues := h.values_received
    have hall := deliveredBefore_of_not_live hlive
    rw [deliveredBefore_next upstream r c x hx, List.getElem?_eq_none (by omega), Option.map_none,
      Option.toList_none, List.append_nil] at hall
    have hlength := congrArg List.length h.received
    rw [hall, List.length_map] at hlength
    rw [Balanced, hunlimited, if_neg Bool.false_ne_true] at hbalanced
    rw [demand_cons, published, List.length_append, List.length_map, List.length_singleton]
    simp only [Entry.demand, Nat.add_zero]
    omega
  delivering := hdelivering
  gone := (h.sides.finish hx hend).gone hlive
  subscribed := h.subscribed

/-- The position after a value was taken and is being delivered. -/
theorem Position.take (h : Position upstream r c s parts log) (hx : upstream[c]? = some x)
    (hvalue : r < x.2.length) {b : RequestBalance} (hremove : s.requestBalance.remove 1 = some b)
    {log' : Log (Sigma T) ι T} (hinner : Inner log log') :
    Position upstream (nextRound upstream.length r c) (nextPlace upstream.length c)
      { refilled s upstream.length c r x with requestBalance := b }
      (parts.set c (ValueStream.after x (r + 1)))
      (.out (.onNext (.value ⟨x.1, x.2[r]⟩)) :: log') where
  sides := by
    have hwrapped : (expected x c r : MergeUpstreamSubscriber (Sigma T)).wrapped = true := by
      rw [expected, if_pos (by omega)]
      exact decide_eq_true hvalue
    have htake := h.sides.take hx hvalue
    simp only [refilled, taken, setUpstream, addAvailable, List.set_set, hwrapped]
    exact htake
  place := nextPlace_lt h.place
  currentIndex := rfl
  hasEnded := h.hasEnded
  selfLock := h.selfLock
  available := available_pos _ 1 (by decide)
  live := h.live.next hx (by omega)
  received := by
    rw [deliveredBefore_next upstream r c x hx, List.getElem?_eq_getElem hvalue, Option.map_some,
      Option.toList_some, List.map_append, received_cons, hinner.received, h.received]
    rfl
  balanced := (h.inner hinner).balanced.deliver hremove _
  subscribed := by
    rw [subscribed_cons, hinner.subscribed, h.subscribed]
    rfl

end Loop

section Run

variable {upstream : List ((i : ι) × List (T i))} {fits : upstream.length < 2 ^ 31}

/-- A value is delivered: its upstream is asked for the next event, which is
    there when the request returns. -/
theorem deliver_value {st : Merging T (valuePublisher upstream fits)} {r c : Nat}
    {x : (i : ι) × List (T i)}
    {rest : List (Linked.Frame (Point (Sigma T)) GeneratingStream.Point)}
    (hbase : Base rest st.state.created) (hstack : st.stack = .env :: rest)
    (hturn : st.turn = .run .deliver) (h : Position upstream r c st.state st.parts st.log)
    (hdelivering : st.state.delivering = true) (hx : upstream[c]? = some x)
    (hbalance : 0 < st.state.requestBalance.balance) (hvalue : r < x.2.length) :
    Linked.Settles subscriptionCheck
      (fun st' : Merging T (valuePublisher upstream fits) => Standing upstream fits st' ∧
        received st'.log = received st.log ++ [.value ⟨x.1, x.2[r]⟩] ∧
        st'.stack.length = rest.length + 2 ∧ st'.state.hasEnded = false) st := by
  have hthere : st.parts[c]? = some (ValueStream.before x (r + 1)) := by
    rw [h.sides.part c x hx, if_pos h.place, turnsAt_self, Nat.min_eq_left (by omega)]
    simp only [ValueStream.after, if_pos hvalue]
  rcases st.state.requestBalance.remove_isSome hbalance with ⟨b, hremove⟩
  -- The upstream is asked for its next event.
  refine .of_run _ hturn (h.deliver_value hx hbalance hvalue) ?_
  rw [Linked.perform_ask _ _ _ _ _ _ (by
    rw [Linked.views_eq hthere, subscriptionCheck_false])]
  have hu : (taken st.state upstream.length c
      { expected x c r with next := none }).upstreamSubscribers[c]? =
      some { expected x c r with next := none } :=
    getElem?_setUpstream_self (h.subscriber hx) _
  refine answers rfl hthere hu rfl h.hasEnded h.selfLock (Or.inl hdelivering) fun log hlog => ?_
  have hinner := (Inner.ask c (.request 1) st.log).trans hlog
  have hnext := h.take hx hvalue hremove hinner
  -- The value is delivered.
  have hdeliver : ((refilled st.state upstream.length c r x).deliverEvent
      (.value ⟨x.1, x.2[r]⟩) : Result ι (Sigma T)) =
      ({ refilled st.state upstream.length c r x with requestBalance := b },
        .out (.onNext (.value ⟨x.1, x.2[r]⟩)) .delivered) := by
    have hended : (refilled st.state upstream.length c r x).hasEnded = false := h.hasEnded
    have hb : (refilled st.state upstream.length c r x).requestBalance.remove 1 = some b := hremove
    rw [deliverEvent, if_neg (by rw [hended]; exact Bool.false_ne_true)]
    simp only [hb]
  refine .of_run _ rfl hdeliver ?_
  refine Linked.settles_of_outside _ rfl ⟨?_, ?_, ?_, h.hasEnded⟩
  · exact .delivered _ _ _ rest hbase (congrArg _ hstack) hnext hdelivering
  · exact (received_cons _ _).trans (congrArg (· ++ _) hinner.received)
  · exact congrArg (fun l => List.length l + 1) hstack

/-- With every event that is delivered less remains. -/
theorem remaining_le {st : Merging T (valuePublisher upstream fits)} {n m : Nat}
    (hstack : st.stack.length = n + 2) (hm : m < (published upstream).length)
    (hreceived : (received st.log).length = m + 1) :
    remaining upstream st ≤ 4 * ((published upstream).length - m) + n + 2 := by
  unfold remaining
  rw [hstack, hreceived]
  by_cases hended : st.state.hasEnded = true
  · rw [if_pos hended]
    omega
  · rw [if_neg hended]
    omega

/-- The loop comes to an end: the demand is used up, or an event is
    delivered. The number of turns left is bounded by the longest list. -/
theorem deliver_loop (n : Nat) (st : Merging T (valuePublisher upstream fits)) (r c : Nat)
    (rest : List (Linked.Frame (Point (Sigma T)) GeneratingStream.Point))
    (hbase : Base rest st.state.created) (hstack : st.stack = .env :: rest)
    (hturn : st.turn = .run .deliver) (h : Position upstream r c st.state st.parts st.log)
    (hdelivering : st.state.delivering = true)
    (hn : (longest upstream + 1) * upstream.length ≤ r * upstream.length + c + n) :
    Linked.Settles subscriptionCheck
      (fun st' : Merging T (valuePublisher upstream fits) => Standing upstream fits st' ∧
        remaining upstream st' ≤
          4 * ((published upstream).length - (received st.log).length) + rest.length + 2) st := by
  induction n generalizing st r c with
  | zero =>
      -- There is no round after the longest list.
      have hrounds := Nat.mul_le_mul_right upstream.length h.live.le_longest
      have hplace := h.place
      rw [Nat.add_mul] at hn
      omega
  | succ n ih =>
      have hthere : ∃ x, upstream[c]? = some x := ⟨_, List.getElem?_eq_getElem h.place⟩
      rcases hthere with ⟨x, hx⟩
      have hposition := next_position upstream.length r c
      by_cases hbalance : 0 < st.state.requestBalance.balance
      · rcases Nat.lt_trichotomy x.2.length r with hover | hend | hvalue
        · refine .of_run _ hturn (h.deliver_skip hx hbalance hover) ?_
          exact ih _ _ _ hbase hstack rfl (h.skip hx hover) hdelivering (by omega)
        · by_cases hlive :
            Live upstream (nextRound upstream.length r c) (nextPlace upstream.length c)
          · have hended := h.upstreamEnded hx hend false (by simp [hlive])
            refine .of_run _ hturn ((h.deliver_end hx hbalance hend).trans hended) ?_
            exact ih _ _ _ hbase hstack rfl (h.finish hx hend hlive) hdelivering (by omega)
          · have hended := h.upstreamEnded hx hend true (by simp [hlive])
            have hcomplete := h.complete hx hend hbalance hdelivering hlive
            refine .of_run _ hturn ((h.deliver_end hx hbalance hend).trans hended) ?_
            refine Linked.settles_of_outside _ rfl ⟨.finishing _ rest hbase
              (congrArg _ hstack) hcomplete h.hasEnded, ?_⟩
            refine remaining_le (congrArg (fun l => List.length l + 1) hstack) h.received_lt ?_
            exact (congrArg List.length (received_cons _ _)).trans List.length_append
        · refine (deliver_value hbase hstack hturn h hdelivering hx hbalance hvalue).mono ?_
          rintro st' ⟨hstanding, hreceived, hlength, hended⟩
          refine ⟨hstanding, remaining_le hlength h.received_lt ?_⟩
          rw [hreceived, List.length_append, List.length_singleton]
      · refine .of_run ({ st.state with delivering := false }, .ret) hturn ?_ ?_
        · change MergeStream.deliver _ = _
          rw [MergeStream.deliver, if_neg (by rw [h.hasEnded]; exact Bool.false_ne_true),
            loopCondition, decide_eq_false hbalance, Bool.false_and,
            if_neg Bool.false_ne_true]
        · have hback : Linked.back { st with state := { st.state with delivering := false } } =
              { st with
                state := { st.state with delivering := false }, turn := .outside
                stack := rest } := by
            rw [Linked.back, hstack]
          have hposition' : Position upstream r c { st.state with delivering := false }
              st.parts st.log := { h with }
          refine Linked.settles_of_outside _ (by rw [Linked.perform, hback]; rfl) ?_
          rw [Linked.perform, hback]
          refine ⟨.waiting _ r c hbase hposition' rfl (Nat.eq_zero_of_not_pos hbalance), ?_⟩
          simp only [remaining, h.hasEnded, Bool.false_eq_true, if_false, Nat.le_refl]

theorem turnsAt_zero : turnsAt 0 0 = fun _ => 0 := by
  funext p
  exact if_neg (Nat.not_lt_zero p)

/-- The position when all upstreams have been subscribed to. -/
theorem SetUp.position {s : MergeStream (Sigma T)} {parts : List (ValueStream T)} {made : Nat}
    {log : Log (Sigma T) ι T} (h : SetUp upstream upstream.length s parts made)
    (hpos : 0 < upstream.length) (hlog : Inner [.call .subscribe] log) :
    Position upstream 0 0 s parts (.out .onSubscribe :: log) where
  sides := by
    rw [turnsAt_zero]
    exact h.sides
  place := hpos
  currentIndex := h.currentIndex
  hasEnded := h.hasEnded
  selfLock := h.selfLock
  available := h.available hpos
  live := ⟨0, _, List.getElem?_eq_getElem hpos, by
    rw [turnsAt_zero]
    exact Nat.zero_le _⟩
  received := by
    rw [received_cons, hlog.received]
    rfl
  balanced := by
    have hunlimited : unlimited (.out .onSubscribe :: log) = false := by
      rw [unlimited_quiet _ _ rfl, hlog.unlimited, unlimited_quiet _ _ rfl, unlimited_nil]
    have hreceived : RxCppUniq.received (.out .onSubscribe :: log) = [] := by
      rw [received_cons, hlog.received]
      rfl
    have hdemand : demand (.out .onSubscribe :: log) = 0 := by
      rw [demand_cons, hlog.demand]
      rfl
    rw [Balanced, hunlimited, if_neg Bool.false_ne_true, hreceived, hdemand, h.requestBalance]
    rfl
  subscribed := rfl

/-- All upstreams that are left are subscribed to, and the subscriber is handed
    the subscription. -/
theorem subscribes_all (n m : Nat) (st : Merging T (valuePublisher upstream fits))
    (hset : SetUp upstream m st.state st.parts st.made) (hn : m + n = upstream.length)
    (hpos : 0 < upstream.length) (hstack : st.stack = [.env])
    (hlog : Inner [.call .subscribe] st.log) :
    Linked.Settles subscriptionCheck (Standing upstream fits)
      (Linked.perform (fun p => subscriptionCheck (st.views p)) st
        (subscribeNext (valuePublisher upstream fits) st.state)) := by
  induction n generalizing m st with
  | zero =>
      rw [Nat.add_zero] at hn
      subst hn
      have hlast : (subscribeNext (valuePublisher upstream fits) st.state :
          Result ι (Sigma T)) = (st.state, .out .onSubscribe .confirmed) := by
        rw [subscribeNext, hset.sides.length, valuePublisher]
        simp only [List.getElem?_map, List.getElem?_length, Option.map_none]
      rw [hlast]
      refine Linked.settles_of_outside _ rfl (.waiting _ 0 0 ?_ (hset.position hpos hlog) ?_ ?_)
      · change Base (.own .confirmed :: st.stack) st.state.created
        rw [hstack, hset.created]
        exact .confirming
      · exact hset.delivering
      · exact congrArg RequestBalance.balance hset.requestBalance
  | succ n ih =>
      refine subscribes hset (by omega) fun st' hset' hstack' hlog' => ?_
      exact ih (m + 1) st' hset' (by omega) (hstack'.trans hstack) (hlog.trans hlog')

/-- The subscriber only requests. -/
def OnlyRequests (st : Merging T (valuePublisher upstream fits)) (c : Call) : Prop :=
  Protocol.subscriber st.log c ∧ c ≠ .cancel

/-- A request during a delivery is only counted. -/
theorem call_delivering {st : Merging T (valuePublisher upstream fits)}
    (hturn : st.turn.isOutside = true) (hdelivering : st.state.delivering = true) (n : Nat) :
    st.call subscriptionCheck (.request n) = { st with
      state := { st.state with requestBalance := st.state.requestBalance.add n }
      log := .call (.request n) :: st.log } := by
  have hrequest : (st.state.request n : Result ι (Sigma T)) =
      ({ st.state with requestBalance := st.state.requestBalance.add n }, .ret) := by
    rw [MergeStream.request, maybeDeliver, if_pos hdelivering]
  have houtside : st.turn = .outside := by
    cases hkind : st.turn with
    | outside => rfl
    | _ =>
        rw [hkind] at hturn
        exact absurd hturn Bool.false_ne_true
  change Linked.perform _ _ (st.state.request n) = _
  rw [hrequest, Linked.perform, Linked.back, houtside]

/-- More requests do not change what has been completed. -/
theorem Complete.request {s : MergeStream (Sigma T)} {log : Log (Sigma T) ι T}
    (h : Complete upstream s log) (n : Nat) :
    Complete upstream { s with requestBalance := s.requestBalance.add n }
      (.call (.request n) :: log) where
  received := by
    rw [received_cons, h.received]
    exact List.append_nil _
  demand := by
    intro hunlimited
    rw [unlimited_cons, Bool.or_eq_false_iff] at hunlimited
    rw [demand_cons]
    exact Nat.le_add_right_of_le (h.demand hunlimited.1)
  delivering := h.delivering
  gone := h.gone
  subscribed := h.subscribed

/-- More is requested while the loop is at some position. -/
theorem Position.request {r c : Nat} {s : MergeStream (Sigma T)} {parts : List (ValueStream T)}
    {log : Log (Sigma T) ι T} (h : Position upstream r c s parts log) (n : Nat)
    (delivering : Bool) :
    Position upstream r c
      { s with requestBalance := s.requestBalance.add n, delivering := delivering } parts
      (.call (.request n) :: log) where
  sides := h.sides
  place := h.place
  currentIndex := h.currentIndex
  hasEnded := h.hasEnded
  selfLock := h.selfLock
  available := h.available
  live := h.live
  received := by
    rw [received_cons, h.received]
    exact List.append_nil _
  balanced := h.balanced.request n
  subscribed := h.subscribed

/-- A request while the loop does not run starts it. -/
theorem call_waiting {st : Merging T (valuePublisher upstream fits)} {r c : Nat}
    (hbase : Base st.stack st.state.created)
    (h : Position upstream r c st.state st.parts st.log) (hidle : st.state.delivering = false)
    (n : Nat) :
    Linked.Settles subscriptionCheck (Standing upstream fits)
      (st.call subscriptionCheck (.request n)) := by
  have hrequest : (st.state.request n : Result ι (Sigma T)) =
      ({ st.state with
        requestBalance := st.state.requestBalance.add n, delivering := true },
          .goto .deliver) := by
    rw [MergeStream.request, maybeDeliver, if_neg (by
      change ¬st.state.delivering = true
      rw [hidle]
      exact Bool.false_ne_true)]
  have hcall : st.call subscriptionCheck (.request n) = { st with
      state := { st.state with
        requestBalance := st.state.requestBalance.add n, delivering := true }
      turn := .run .deliver, stack := .env :: st.stack
      log := .call (.request n) :: st.log } :=
    congrArg (Linked.perform _ _) hrequest
  rw [hcall]
  refine Linked.Settles.mono (deliver_loop ((longest upstream + 1) * upstream.length) _ r c st.stack
    ?_ ?_ ?_ ?_ ?_ (Nat.le_add_left _ _)) fun st' h => h.1
  · exact hbase
  · rfl
  · rfl
  · exact h.request n true
  · rfl

/-- Requests keep the invariant. -/
theorem standing_call {st : Merging T (valuePublisher upstream fits)} {c : Call}
    (hpos : 0 < upstream.length) (h : Standing upstream fits st) (hturn : st.turn.isOutside = true)
    (hgate : subscriptionCheck st.state.hasEnded c = none) (hallow : OnlyRequests st c) :
    Linked.Settles subscriptionCheck (Standing upstream fits)
      (st.call subscriptionCheck c) := by
  rcases hallow with ⟨hprotocol, hcancel⟩
  -- The publisher is subscribed to only once.
  have hrequest : subscribed st.log = true → ∃ n, c = .request n := by
    intro hsubscribed
    cases c with
    | subscribe =>
        rw [List.isEmpty_iff.mp hprotocol] at hsubscribed
        exact absurd hsubscribed Bool.false_ne_true
    | request n => exact ⟨n, rfl⟩
    | cancel => exact absurd rfl hcancel
  cases h with
  | fresh =>
      cases c with
      | subscribe =>
          have hset : SetUp upstream 0
              ({ selfLock := true, created := true } : MergeStream (Sigma T))
              (upstream.map fun x => ValueStream.before x 0) 0 :=
            { sides :=
                { length := rfl
                  count := List.length_map _
                  subscriber := fun p x _ hp => absurd hp (Nat.not_lt_zero p)
                  part := fun p x hx => by
                    rw [List.getElem?_map, hx, if_neg (Nat.not_lt_zero p)]
                    rfl }
              made := rfl
              hasEnded := rfl
              selfLock := rfl
              created := rfl
              currentIndex := rfl
              requestBalance := rfl
              available := fun h => absurd h (Nat.lt_irrefl 0)
              delivering := rfl }
          exact subscribes_all upstream.length 0
            { state := { selfLock := true, created := true }
              parts := upstream.map fun x => ValueStream.before x 0
              stack := [.env], log := [.call .subscribe] }
            hset (Nat.zero_add _) hpos rfl (Inner.refl _)
      | request n => exact absurd hprotocol.1 Bool.false_ne_true
      | cancel => exact absurd rfl hcancel
  | waiting _ r c' base position idle balance =>
      rcases hrequest position.subscribed with ⟨n, rfl⟩
      exact call_waiting base position idle n
  | delivered _ r c' rest base stack position delivering =>
      rcases hrequest position.subscribed with ⟨n, rfl⟩
      rw [call_delivering hturn delivering]
      have hposition := position.request n st.state.delivering
      exact Linked.settles_of_outside _ hturn
        (.delivered _ r c' rest base stack hposition delivering)
  | finishing _ rest base stack complete hasEnded =>
      rcases hrequest complete.subscribed with ⟨n, rfl⟩
      rw [call_delivering hturn complete.delivering]
      exact Linked.settles_of_outside _ hturn
        (.finishing _ rest base stack (complete.request n) hasEnded)
  | past _ stack complete hasEnded selfLock created =>
      rcases hrequest complete.subscribed with ⟨n, rfl⟩
      rw [call_delivering hturn complete.delivering]
      exact Linked.settles_of_outside _ hturn
        (.past _ stack (complete.request n) hasEnded selfLock created)
  | ended _ stack complete hasEnded =>
      rcases hrequest complete.subscribed with ⟨n, rfl⟩
      rw [hasEnded] at hgate
      exact absurd hgate
        (by simp only [subscriptionCheck, if_true, reduceCtorEq, not_false_eq_true])

/-- The object is destroyed when its last owner lets go of it. -/
theorem release_gone {s : MergeStream (Sigma T)} (hlock : s.selfLock = false)
    (hcreated : s.created = false) (hgone : ∀ u ∈ s.upstreamSubscribers, u.alive = false)
    (hended : s.hasEnded = false) :
    (s.release : Result ι (Sigma T)) = ({ s with hasEnded := true }, .out .destroy .done) := by
  have hany : s.upstreamSubscribers.any (·.alive) = false := by
    rw [List.any_eq_false]
    intro u hu
    rw [hgone u hu]
    exact Bool.false_ne_true
  rw [release, held, hlock, hcreated, hany, hended]
  rfl

theorem release_created {s : MergeStream (Sigma T)} (hcreated : s.created = true) :
    (s.release : Result ι (Sigma T)) = (s, .ret) := by
  unfold release held
  rw [hcreated, Bool.or_true, Bool.true_or, Bool.true_or, if_pos rfl]

/-- The destruction delivers nothing. -/
theorem Complete.destroy {s : MergeStream (Sigma T)} {log : Log (Sigma T) ι T}
    (h : Complete upstream s log) :
    Complete upstream { s with hasEnded := true } (.out .destroy :: log) where
  received := by
    rw [received_cons, h.received]
    exact List.append_nil _
  demand := by
    intro hunlimited
    rw [unlimited_quiet _ _ rfl] at hunlimited
    rw [demand_cons]
    exact Nat.le_add_right_of_le (h.demand hunlimited)
  delivering := h.delivering
  gone := h.gone
  subscribed := h.subscribed

/-- The stream is destroyed. -/
theorem settles_destroyed {st : Merging T (valuePublisher upstream fits)}
    {k : Point (Sigma T)} {s : MergeStream (Sigma T)} (hturn : st.turn = .run k)
    (hstack : st.stack = [.env])
    (hcode : (component T (valuePublisher upstream fits)).resume st.views st.state k =
      ({ s with hasEnded := true }, .out .destroy .done))
    (h : Complete upstream s st.log) :
    Linked.Settles subscriptionCheck (fun st' => Standing upstream fits st' ∧
      remaining upstream st' = 2) st := by
  refine .of_run _ hturn hcode ?_
  refine Linked.settles_of_outside _ rfl ⟨.ended _ (Or.inr (congrArg _ hstack)) h.destroy rfl, ?_⟩
  have hlog : received (.out .destroy :: st.log) = published upstream := h.destroy.received
  simp only [Linked.perform, remaining, hstack, hlog, List.length_cons, List.length_nil, if_true]
  omega

/-- When the subscriber returns the invariant is kept, and less remains. -/
theorem standing_reply {st : Merging T (valuePublisher upstream fits)}
    (h : Standing upstream fits st) (hstack : st.stack ≠ []) :
    Linked.Settles subscriptionCheck (fun st' => Standing upstream fits st' ∧
      remaining upstream st' < remaining upstream st) st.reply := by
  cases h with
  | fresh => exact absurd rfl hstack
  | waiting _ r c base position idle balance =>
      -- The subscriber returns from `OnSubscribe`, and the stream holds itself.
      generalize hrest : st.stack = rest at base hstack
      generalize hcreated : st.state.created = created at base
      cases base with
      | rest => exact absurd rfl hstack
      | confirming =>
          have hreply : st.reply = { st with turn := .run .confirmed, stack := [.env] } := by
            rw [Linked.reply, hrest]
          have hposition : Position upstream r c { st.state with created := false } st.parts
              st.log := { position with }
          rw [hreply]
          refine .of_run _ rfl (release_held (s := { st.state with created := false })
            position.selfLock) ?_
          refine Linked.settles_of_outside _ rfl
            ⟨.waiting _ r c .rest hposition idle balance, ?_⟩
          change remaining upstream { st with
            state := { st.state with created := false }, stack := [], turn := .outside } < _
          simp only [remaining, hrest, List.length_cons, List.length_nil]
          omega
  | delivered _ r c rest base stack position delivering =>
      have hreply : st.reply = { st with turn := .run .delivered, stack := .env :: rest } := by
        rw [Linked.reply, stack]
      rw [hreply]
      refine .of_run (st.state, .goto .deliver) rfl rfl ?_
      change Linked.Settles _ _ { st with turn := .run .deliver, stack := .env :: rest }
      refine Linked.Settles.mono (deliver_loop ((longest upstream + 1) * upstream.length) _ r c rest
        ?_ ?_ ?_ ?_ ?_ (Nat.le_add_left _ _)) fun st' h => ⟨h.1, Nat.lt_of_le_of_lt h.2 ?_⟩
      · exact base
      · rfl
      · rfl
      · exact position
      · exact delivering
      · simp only [remaining, stack, List.length_cons, position.hasEnded, Bool.false_eq_true,
          if_false]
        omega
  | finishing _ rest base stack complete hasEnded =>
      have hreply : st.reply = { st with turn := .run .finished, stack := .env :: rest } := by
        rw [Linked.reply, stack]
      have hresume : ∀ views, (component T (valuePublisher upstream fits)).resume views st.state
          .finished = release { st.state with selfLock := false } := by
        intro views
        change (if st.state.hasEnded = true then _ else _) = _
        rw [if_neg (by rw [hasEnded]; exact Bool.false_ne_true)]
      rw [hreply]
      generalize hcreated : st.state.created = created at base
      cases base with
      | rest =>
          have hgone := release_gone (s := { st.state with selfLock := false }) rfl hcreated
            complete.gone hasEnded
          refine Linked.Settles.mono (settles_destroyed rfl rfl ((hresume _).trans hgone)
            { complete with }) fun st' h => ⟨h.1, ?_⟩
          rw [h.2]
          simp only [remaining, stack, hasEnded, List.length_cons, List.length_nil,
            Bool.false_eq_true, if_false]
          omega
      | confirming =>
          -- The pointer returned by `Create` is still alive.
          have hheld := release_created (s := { st.state with selfLock := false }) hcreated
          refine .of_run _ rfl ((hresume _).trans hheld) ?_
          refine Linked.settles_of_outside _ rfl
            ⟨.past _ rfl { complete with } hasEnded rfl hcreated, ?_⟩
          simp only [Linked.perform, Linked.back, remaining, stack, List.length_cons,
            List.length_nil, hasEnded]
          omega
  | past _ stack complete hasEnded selfLock created =>
      have hreply : st.reply = { st with turn := .run .confirmed, stack := [.env] } := by
        rw [Linked.reply, stack]
      have hgone := release_gone (s := { st.state with created := false }) selfLock rfl
        complete.gone hasEnded
      rw [hreply]
      refine Linked.Settles.mono (settles_destroyed rfl rfl hgone { complete with })
        fun st' h => ⟨h.1, ?_⟩
      rw [h.2]
      simp only [remaining, stack, hasEnded, List.length_cons, List.length_nil,
        Bool.false_eq_true, if_false]
      omega
  | ended _ stack complete hasEnded =>
      rcases stack with hempty | hdone
      · exact absurd hempty hstack
      · have hreply : st.reply = { st with turn := .run .done, stack := [.env] } := by
          rw [Linked.reply, hdone]
        rw [hreply]
        refine .of_run (st.state, .ret) rfl rfl ?_
        refine Linked.settles_of_outside _ rfl ⟨.ended _ (Or.inl rfl) complete hasEnded, ?_⟩
        simp only [Linked.perform, Linked.back, remaining, hdone, hasEnded, List.length_cons,
          List.length_nil]
        omega

/-- What is to be delivered: as many events as were requested, and all of them
    once the demand has been infinite. -/
def due (upstream : List ((i : ι) × List (T i))) (log : Log (Sigma T) ι T) :
    List (StatusOr (Sigma T)) :=
  if unlimited log then published upstream else (published upstream).take (demand log)

/-- Demand that was infinite was at least `kMax`. -/
theorem le_demand_of_unlimited (log : Log (Sigma T) ι T) (h : unlimited log = true) :
    kMax ≤ demand log := by
  induction log with
  | nil => exact absurd h Bool.false_ne_true
  | cons n log ih =>
      rw [unlimited_cons, Bool.or_eq_true, decide_eq_true_eq] at h
      rw [demand_cons]
      rcases h with hold | hnew
      · exact Nat.le_add_right_of_le (ih hold)
      · omega

/-- A run without requests leaves what is to be delivered as it is. -/
theorem due_uncalled {log log' : Log (Sigma T) ι T} (h : Linked.Uncalled log log') :
    unlimited log' = unlimited log ∧ demand log' = demand log := by
  rcases h with ⟨new, rfl, hnew⟩
  induction new with
  | nil => exact ⟨rfl, rfl⟩
  | cons n new ih =>
      have hquiet : Entry.demand n = 0 := by
        cases n with
        | call c => exact absurd List.mem_cons_self (hnew c)
        | out o => rfl
        | ask p c => rfl
        | said p i o => rfl
      rcases ih fun c hc => hnew c (List.mem_cons_of_mem n hc) with ⟨hunlimited, hdemand⟩
      rw [List.cons_append, unlimited_quiet _ _ hquiet, demand_cons, hquiet]
      exact ⟨hunlimited, hdemand⟩

/-- What was received at a position is a beginning of what is published. -/
theorem Position.prefix_published {r c : Nat} {s : MergeStream (Sigma T)}
    {parts : List (ValueStream T)} {log : Log (Sigma T) ι T}
    (h : Position upstream r c s parts log) :
    RxCppUniq.received log <+: published upstream := by
  rw [h.received]
  exact ((deliveredBefore_prefix_interleaved upstream r c).map _).trans (List.prefix_append _ _)

/-- Nothing is received that was not requested. -/
theorem Position.received_due {r c : Nat} {s : MergeStream (Sigma T)}
    {parts : List (ValueStream T)} {log : Log (Sigma T) ι T}
    (h : Position upstream r c s parts log) : RxCppUniq.received log <+: due upstream log := by
  have hbalanced := h.balanced
  unfold due
  unfold Balanced at hbalanced
  by_cases hunlimited : unlimited log = true
  · rw [if_pos hunlimited]
    exact h.prefix_published
  · rw [if_neg hunlimited] at hbalanced ⊢
    rw [h.values_received] at hbalanced
    exact List.prefix_take_iff.mpr ⟨h.prefix_published, by omega⟩

theorem Complete.received_due {s : MergeStream (Sigma T)} {log : Log (Sigma T) ι T}
    (h : Complete upstream s log) : RxCppUniq.received log = due upstream log := by
  unfold due
  by_cases hunlimited : unlimited log = true
  · rw [if_pos hunlimited, h.received]
  · rw [if_neg hunlimited, List.take_of_length_le (h.demand (Bool.eq_false_iff.mpr hunlimited)),
      h.received]

namespace Standing

variable {st : Merging T (valuePublisher upstream fits)}

/-- Nothing is received that was not requested, and nothing out of order. -/
theorem received_due (h : Standing upstream fits st) : received st.log <+: due upstream st.log := by
  cases h with
  | fresh => exact List.nil_prefix
  | waiting _ r c base position idle balance => exact position.received_due
  | delivered _ r c rest base stack position delivering => exact position.received_due
  | finishing _ rest base stack complete hasEnded =>
      exact complete.received_due ▸ List.prefix_refl _
  | past _ stack complete hasEnded selfLock created =>
      exact complete.received_due ▸ List.prefix_refl _
  | ended _ stack complete hasEnded => exact complete.received_due ▸ List.prefix_refl _

/-- At rest nothing is left that was requested. -/
theorem received_eq (h : Standing upstream fits st) (hstack : st.stack = []) :
    received st.log = due upstream st.log := by
  cases h with
  | fresh => rfl
  | waiting _ r c base position idle balance =>
      have hbalanced := position.balanced
      have hpos : 0 < kMax := by decide
      rw [List.prefix_iff_eq_take.mp position.received_due]
      unfold due
      unfold Balanced at hbalanced
      by_cases hunlimited : unlimited st.log = true
      · rw [if_pos hunlimited] at hbalanced
        omega
      · rw [if_neg hunlimited] at hbalanced ⊢
        rw [position.values_received, balance, Nat.zero_add] at hbalanced
        rw [hbalanced, List.take_take, Nat.min_self]
  | delivered _ r c rest base stack position delivering =>
      rw [stack] at hstack
      exact absurd hstack (List.cons_ne_nil _ _)
  | finishing _ rest base stack complete hasEnded => exact complete.received_due
  | past _ stack complete hasEnded selfLock created => exact complete.received_due
  | ended _ stack complete hasEnded => exact complete.received_due

end Standing

/-- The streams of the upstreams before the publisher is subscribed to. -/
def streams (upstream : List ((i : ι) × List (T i))) : List (ValueStream T) :=
  upstream.map fun x => ValueStream.before x 0

/-- The states that runs reach in which the subscriber only requests. -/
abbrev Reach (upstream : List ((i : ι) × List (T i))) (fits : upstream.length < 2 ^ 31) :
    Merging T (valuePublisher upstream fits) → Prop :=
  Linked.Reach subscriptionCheck OnlyRequests (streams upstream)

/-- In every run the invariant holds when the subscriber gets control. -/
theorem Reach.settles {st : Merging T (valuePublisher upstream fits)}
    (hpos : 0 < upstream.length) (h : Reach upstream fits st) :
    Linked.Settles subscriptionCheck (Standing upstream fits) st := by
  refine Linked.Reach.settles _ .fresh ?_ ?_ st h
  · intro st c hstanding hturn hgate hallow
    exact standing_call hpos hstanding hturn hgate hallow
  · intro st hstanding hturn
    by_cases hstack : st.stack = []
    · have hreply : st.reply = st := by
        rw [Linked.reply, hstack]
      rw [hreply]
      exact Linked.settles_of_outside _ hturn hstanding
    · exact (standing_reply hstanding hstack).mono fun st' h => h.1

/-- A run in which the subscriber only returns comes to rest. -/
theorem Reach.rests {st : Merging T (valuePublisher upstream fits)}
    (hpos : 0 < upstream.length) (h : Reach upstream fits st) :
    ∃ n, Linked.AtRest (Linked.follows subscriptionCheck n st) ∧
      Standing upstream fits (Linked.follows subscriptionCheck n st) ∧
      received (Linked.follows subscriptionCheck n st).log = due upstream st.log := by
  rcases Linked.rests (remaining upstream) (fun st hstanding _ hstack =>
    standing_reply hstanding hstack) st (h.settles hpos) with ⟨n, hrest, hstanding⟩
  refine ⟨n, hrest, hstanding, ?_⟩
  rcases due_uncalled (Linked.follows_uncalled subscriptionCheck n st)
    with ⟨hunlimited, hdemand⟩
  rw [hstanding.received_eq hrest.2, due, due, hunlimited, hdemand]

/-- The publisher has been subscribed to. -/
def opening (upstream : List ((i : ι) × List (T i))) (fits : upstream.length < 2 ^ 31) :
    Merging T (valuePublisher upstream fits) :=
  Linked.call subscriptionCheck { state := {}, parts := streams upstream } .subscribe

theorem Reach.opening (upstream : List ((i : ι) × List (T i))) (fits : upstream.length < 2 ^ 31) :
    Reach upstream fits (opening upstream fits) :=
  Linked.Reach.call _ Call.subscribe .init rfl rfl
    ⟨rfl, by simp only [ne_eq, reduceCtorEq, not_false_eq_true]⟩

/-- The subscriber is handed the subscription, and may request. -/
theorem Reach.opened (upstream : List ((i : ι) × List (T i))) (fits : upstream.length < 2 ^ 31)
    (hpos : 0 < upstream.length) :
    ∃ st : Merging T (valuePublisher upstream fits), Reach upstream fits st ∧ Linked.AtRest st ∧
      subscribed st.log = true ∧ st.state.hasEnded = false ∧ demand st.log = 0 := by
  rcases (Reach.opening upstream fits).rests hpos with ⟨n, hrest, hstanding, hreceived⟩
  have hreach := Linked.Reach.follows n _ (Reach.opening upstream fits)
  have huncalled := (Linked.perform_uncalled _ _ _).trans
    (Linked.follows_uncalled subscriptionCheck n (MergeStream.opening upstream fits))
  generalize Linked.follows subscriptionCheck n (MergeStream.opening upstream fits) = st
    at hrest hstanding hreceived hreach huncalled
  have hdemand : demand st.log = 0 := (due_uncalled huncalled).2
  have hnothing : received st.log = [] := by
    have hopening : demand (MergeStream.opening upstream fits).log = 0 :=
      (due_uncalled (Linked.perform_uncalled _ _ _)).2
    have hunlimited : unlimited (MergeStream.opening upstream fits).log = false :=
      (due_uncalled (Linked.perform_uncalled _ _ _)).1
    rw [hreceived, due, hunlimited, if_neg Bool.false_ne_true, hopening, List.take_zero]
  refine ⟨st, hreach, hrest, ?_⟩
  cases hstanding with
  | fresh =>
      rcases huncalled with ⟨new, hlog, -⟩
      exact absurd hlog.symm (List.append_ne_nil_of_right_ne_nil _ (List.cons_ne_nil _ _))
  | waiting _ r c base position idle balance =>
      exact ⟨position.subscribed, position.hasEnded, hdemand⟩
  | delivered _ r c rest base stack position delivering =>
      exact ⟨position.subscribed, position.hasEnded, hdemand⟩
  | finishing _ rest base stack complete hasEnded =>
      exact ⟨complete.subscribed, hasEnded, hdemand⟩
  | past _ stack complete hasEnded selfLock created =>
      exact ⟨complete.subscribed, hasEnded, hdemand⟩
  | ended _ stack complete hasEnded =>
      -- The end has not been requested yet.
      rw [complete.received, published] at hnothing
      exact absurd hnothing (List.append_ne_nil_of_right_ne_nil _ (List.cons_ne_nil _ _))

/-- One request for infinitely many events delivers everything. -/
theorem Reach.infinite (upstream : List ((i : ι) × List (T i))) (fits : upstream.length < 2 ^ 31)
    (hpos : 0 < upstream.length) :
    ∃ st : Merging T (valuePublisher upstream fits), Reach upstream fits st ∧ Linked.AtRest st ∧
      demand st.log = kMax ∧ received st.log = published upstream := by
  rcases Reach.opened upstream fits hpos with ⟨st, hreach, hrest, hsubscribed, hended, hdemand⟩
  have hcall : Reach upstream fits (st.call subscriptionCheck (.request kMax)) := by
    refine Linked.Reach.call st _ hreach hrest.1 ?_
      ⟨⟨hsubscribed, by decide, Nat.le_refl _⟩, by
        simp only [ne_eq, reduceCtorEq, not_false_eq_true]⟩
    change subscriptionCheck st.state.hasEnded _ = none
    rw [hended, subscriptionCheck_false]
  rcases hcall.rests hpos with ⟨n, hrest', -, hreceived⟩
  have hlog : Linked.Uncalled (.call (.request kMax) :: st.log)
      (st.call subscriptionCheck (.request kMax)).log := Linked.perform_uncalled _ _ _
  rcases due_uncalled hlog with ⟨hunlimited, hcount⟩
  have htotal := (due_uncalled (Linked.follows_uncalled subscriptionCheck n
    (st.call subscriptionCheck (.request kMax)))).2
  refine ⟨_, Linked.Reach.follows n _ hcall, hrest', ?_, ?_⟩
  · rw [htotal, hcount, demand_cons, hdemand]
    exact Nat.zero_add _
  · have hinfinite : unlimited (.call (.request kMax) :: st.log) = true := by
      rw [unlimited_cons, Bool.or_eq_true, decide_eq_true_eq]
      exact Or.inr (Nat.le_add_left _ _)
    rw [hreceived, due, hunlimited, hinfinite, if_pos rfl]

/-- The values of the subscriber of `MergeUniform`, taken out of the variant by
    its wrapper. -/
def unwrapped {R : Type} : StatusOr ((_ : Unit) × R) → StatusOr R :=
  StatusOr.bind fun v => .value v.2

/-- The upstreams of `MergeUniform` are all of one kind. -/
abbrev uniform {R : Type} (lists : List (List R)) : List ((_ : Unit) × List R) :=
  lists.map fun l => ⟨(), l⟩

/-- The elements of the transposed lists, and the end. -/
theorem unwrapped_published {R : Type} (lists : List (List R)) :
    (published (uniform lists)).map unwrapped =
      ((List.range (longest (uniform lists))).flatMap fun n => lists.filterMap (·[n]?)).map
        StatusOr.value ++ [StatusOr.done] := by
  have hround : ∀ n, (round (uniform lists) n).map (fun v => v.2) = lists.filterMap (·[n]?) := by
    intro n
    rw [round, uniform, List.filterMap_map, List.map_filterMap]
    congr 1
    funext l
    simp only [Function.comp_apply, Option.map_map, Function.comp_def, Option.map_id']
  simp only [published, interleaved, List.map_append, List.map_map, List.map_flatMap,
    List.map_singleton, ← hround]
  rfl

/-- So is the delivery of `MergeUniform`. -/
theorem Reach.uniform {R : Type} (lists : List (List R)) (fits : (uniform lists).length < 2 ^ 31)
    (hpos : 0 < (uniform lists).length)
    (st : Merging (fun _ : Unit => R) (valuePublisher (uniform lists) fits))
    (h : Reach (uniform lists) fits st) (hlimit : unlimited st.log = false) :
    ∃ n, Linked.AtRest (Linked.follows subscriptionCheck n st) ∧
      (received (Linked.follows subscriptionCheck n st).log).map unwrapped =
        (((List.range (longest (uniform lists))).flatMap fun n => lists.filterMap (·[n]?)).map
          StatusOr.value ++ [StatusOr.done]).take (demand st.log) := by
  rcases h.rests hpos with ⟨n, hrest, -, hreceived⟩
  refine ⟨n, hrest, ?_⟩
  rw [hreceived, due, hlimit, if_neg Bool.false_ne_true, List.map_take, unwrapped_published]

/-- The delivery is round robin: the first elements of all upstreams, then all
    second elements, and so on, and the end, as far as they were requested. No
    check fails, and all calls return. -/
theorem round_robin (upstream : List ((i : ι) × List (T i))) (fits : upstream.length < 2 ^ 31)
    (hpos : 0 < upstream.length) (st : Merging T (valuePublisher upstream fits))
    (h : Reach upstream fits st) :
    (∀ msg, st.turn ≠ .failed msg) ∧
    (st.turn.isOutside = true → received st.log <+: due upstream st.log) ∧
    (∃ n, Linked.AtRest (Linked.follows subscriptionCheck n st) ∧
      received (Linked.follows subscriptionCheck n st).log = due upstream st.log) ∧
    ((published upstream).length ≤ kMax →
      due upstream st.log = (published upstream).take (demand st.log)) := by
  have hsettles := h.settles hpos
  rcases h.rests hpos with ⟨n, hrest, -, hreceived⟩
  refine ⟨hsettles.not_failed, fun hturn => (hsettles.holds hturn).received_due,
    ⟨n, hrest, hreceived⟩, fun hshort => ?_⟩
  unfold due
  by_cases hunlimited : unlimited st.log = true
  · have hdemand := le_demand_of_unlimited st.log hunlimited
    rw [if_pos hunlimited, List.take_of_length_le (by omega)]
  · rw [if_neg hunlimited]

/-- Two lists of different lengths. -/
abbrev twoLists : List ((_ : Unit) × List Nat) :=
  uniform [[1, 3], [2]]

/-- The subscriber requests two events. -/
abbrev requestTwo : Merging (fun _ : Unit => Nat) (valuePublisher twoLists (by decide)) :=
  Linked.call subscriptionCheck
    (Linked.follows subscriptionCheck 40 (opening twoLists (by decide))) (.request 2)

theorem reach_requestTwo : Reach twoLists (by decide) requestTwo :=
  Linked.Reach.call _ _ (Linked.Reach.follows 40 _ (Reach.opening _ _)) (by decide +kernel)
    (by decide +kernel)
    ⟨⟨by decide +kernel, by decide, by decide⟩, by
      simp only [ne_eq, reduceCtorEq, not_false_eq_true]⟩

/-- It receives the first elements. -/
theorem round_robin_two :
    ∃ n, received (Linked.follows subscriptionCheck n requestTwo).log =
      [.value ⟨(), 1⟩, .value ⟨(), 2⟩] := by
  rcases (round_robin twoLists (by decide) (by decide) requestTwo reach_requestTwo).2.2.1
    with ⟨n, -, hreceived⟩
  refine ⟨n, hreceived.trans ?_⟩
  decide +kernel

/-- Four lists of the same length. -/
def fourLists (n : Nat) : List ((_ : Unit) × List Unit) :=
  uniform (List.replicate 4 (List.replicate n ()))

theorem fourLists_fits (n : Nat) : (fourLists n).length < 2 ^ 31 := by
  rw [fourLists, List.length_map, List.length_replicate]
  decide

theorem fourLists_pos (n : Nat) : 0 < (fourLists n).length := by
  rw [fourLists, List.length_map, List.length_replicate]
  decide

theorem length_published_fourLists (n : Nat) : (published (fourLists n)).length = 4 * n + 1 := by
  have htotal : total (fun x => x.2.length) (fourLists n) = 4 * n := by
    simp only [fourLists, uniform, List.replicate_succ, List.replicate_zero, List.map_cons,
      List.map_nil, total_cons, total_nil, List.length_replicate]
    omega
  rw [published, List.length_append, List.length_map, length_interleaved, List.length_singleton,
    htotal]

/-- Where more events are published than can be counted, more than was
    requested is delivered. -/
theorem exceeds (n : Nat) (hn : kMax ≤ 4 * n) :
    ∃ st : Merging (fun _ : Unit => Unit) (valuePublisher (fourLists n) (fourLists_fits n)),
      Reach (fourLists n) (fourLists_fits n) st ∧ Linked.AtRest st ∧
      received st.log ≠ (published (fourLists n)).take (demand st.log) := by
  rcases Reach.infinite (fourLists n) (fourLists_fits n) (fourLists_pos n)
    with ⟨st, hreach, hrest, hdemand, hreceived⟩
  refine ⟨st, hreach, hrest, fun heq => ?_⟩
  have hlength := congrArg List.length heq
  rw [hreceived, List.length_take, hdemand, length_published_fourLists] at hlength
  omega

/-- A request for `kMax` events makes the demand infinite, and more than was
    requested may be delivered. -/
theorem infinite_demand :
    ∃ st : Merging (fun _ : Unit => Unit)
        (valuePublisher (fourLists (2 ^ 62)) (fourLists_fits (2 ^ 62))),
      Reach (fourLists (2 ^ 62)) (fourLists_fits (2 ^ 62)) st ∧ Linked.AtRest st ∧
      received st.log ≠ (published (fourLists (2 ^ 62))).take (demand st.log) :=
  exceeds (2 ^ 62) (by decide)

end Run

end MergeStream

end RxCppUniq
