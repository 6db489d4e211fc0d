import RxCppUniq.Reactive.Chaining
import RxCppUniq.Reactive.Source

/-!
# The Chunks of a Buffer

`Buffer` over a generator publisher. The stream of the generator answers a
request before it returns, and its loop is not entered again from the call in
which a vector is delivered: while the subscriber has a vector in hand nothing
is put in the buffer, so it does not matter that the buffer is cleared only
when the subscriber has returned.

A request for one vector is one for as many values as fit in it. The vectors
that are delivered are the chunks of the values, and the last one may be
shorter if the values end with `Done`. With an error the values that are in
the buffer are lost.

## Main definitions

* `Buffering.chunk`, `Buffering.vectors`: The chunks of a list, and those that
  are delivered.
* `Buffering`: A buffer with the generator below it.
* `Buffering.Filling`, `Buffering.Closing`: What was delivered, before and
  after the end of the values.
* `Buffering.Standing`: The states in which the subscriber has its turn.

## Theorems

* `Buffering.generate_loop`: The loop of the generator gives the turn to the
  subscriber.
* `Buffering.buffer_chunks`: What is delivered when all calls have returned.
-/

namespace RxCppUniq

open Theory

namespace Buffering

variable {T : Type}

/-- The chunk with number `i`, which is shorter where the list ends. -/
def chunk (size : Nat) (xs : List T) (i : Nat) : List T :=
  (xs.drop (i * size)).take size

/-- The chunks that are delivered: all with `Done`, the full ones with an
    error. -/
def vectors (source : Source T) (size : Nat) : List (List T) :=
  if source.ending.code = .outOfRange then
    (List.range ((source.values.length + size - 1) / size)).map (chunk size source.values)
  else (List.range (source.values.length / size)).map (chunk size source.values)

/-- All events: the vectors, and the status. -/
def events (source : Source T) (size : Nat) : List (StatusOr (List T)) :=
  valuesThen (vectors source size) source.ending source.notOk

/-- The first vectors, as many as were asked for, and the status where it was
    asked for more values than there are. -/
def due (source : Source T) (size requested : Nat) : List (StatusOr (List T)) :=
  ((vectors source size).take requested).map .value ++
    if source.values.length < size * requested then [.status source.ending source.notOk] else []

/-- A buffer with the generator below it. -/
abbrev Machine (source : Source T) (size : Nat) :=
  Linked (ChainingStream.component (ChainingFunc.buffer (T := T) size))
    (GeneratingStream.parts source.generator source.initial)

abbrev Frame :=
  Linked.Frame (ChainingStream.Point ChainingFunc.BufferRest) GeneratingStream.Point

/-- The calls that are under way when the generator is not in its loop: none,
    or the one in which the subscriber is handed the subscription. -/
inductive Base : List Frame → Prop where
  | nil : Base []
  | subscribing : Base [.own .done, .part 0 .done, .own .done, .env]

/-- A request is under way. -/
abbrev asking (base : List Frame) : List Frame :=
  .own .done :: .env :: base

/-- The subscriber asks for vectors. It does not cancel, and the number of
    values is a `size_t`. -/
def Requests {source : Source T} {size : Nat} (st : Machine source size) : Call → Prop
  | .subscribe => st.log.isEmpty = true
  | .request n => subscribed st.log = true ∧ 1 ≤ n ∧ size * (demand st.log + n) < 2 ^ 64
  | .cancel => False

/-- The balance of the generator, which has used up some tokens. -/
def Account (size : Nat) (b : RequestBalance) (used requested : Nat) : Prop :=
  b.balance = kMax ∧ size * requested = kMax ∨
    b.balance < kMax ∧ b.balance + used = size * requested

/-- The generator was asked for more values than there are. -/
def Enough (source : Source T) (size : Nat) (log : Log (List T) Unit (fun _ => T)) : Prop :=
  source.values.length < size * demand log ∨
    (owing 0 log).balance = kMax ∧ kMax ≤ size * demand log

/-- What was delivered while there are values left: `k` vectors, and `pos`
    values were made. -/
structure Filling (source : Source T) (size : Nat) (s : ChainingStream (List T))
    (u : GeneratingStream source.State) (log : Log (List T) Unit (fun _ => T)) (pos k : Nat) :
    Prop where
  subscribed : subscribed log = true
  base : s.baseSubscription = some 0
  running : s.hasEnded = false
  alive : u.hasEnded = false
  state : u.state = source.stateAt pos
  le : pos ≤ source.values.length
  balance : u.requested = owing 0 log
  account : Account size u.requested pos (demand log)
  received : received log = (List.range k).map fun i => .value (chunk size source.values i)
  buffer : s.captured = (source.values.drop (k * size)).take (pos - k * size)
  lower : k * size ≤ pos
  upper : pos < (k + 1) * size

/-- The end was made. -/
structure Closing (source : Source T) (size : Nat) (s : ChainingStream (List T))
    (u : GeneratingStream source.State) (log : Log (List T) Unit (fun _ => T)) : Prop where
  subscribed : subscribed log = true
  base : s.baseSubscription = some 0
  running : s.hasEnded = false
  alive : u.hasEnded = false
  generating : u.generating = true
  enough : Enough source size log

/-- Everything was delivered, and the streams are destroyed. -/
structure Complete (source : Source T) (size : Nat) (s : ChainingStream (List T))
    (log : Log (List T) Unit (fun _ => T)) : Prop where
  subscribed : subscribed log = true
  hasEnded : s.hasEnded = true
  enough : Enough source size log
  received : received log = events source size

/-- The states in which the subscriber has its turn. -/
inductive Standing {source : Source T} {size : Nat} (st : Machine source size) : Prop where
  | fresh (start : st = { state := { captured := [] }, parts := [{ state := source.initial }] })
  /-- Nothing is asked for. -/
  | waiting (u : GeneratingStream source.State) (pos k : Nat) (base : Base st.stack)
      (parts : st.parts = [u]) (filling : Filling source size st.state u st.log pos k)
      (generating : u.generating = false) (served : u.requested.balance = 0)
  /-- A full vector is delivered. -/
  | full (u : GeneratingStream source.State) (k : Nat) (rest : List Frame) (base : Base rest)
      (stack : st.stack = .own (.rest .clear) :: .part 0 (.sent false) :: asking rest)
      (parts : st.parts = [u]) (filling : Filling source size st.state u st.log (k * size) k)
      (generating : u.generating = true)
  /-- The last vector is delivered, which is not full. -/
  | partly (u : GeneratingStream source.State) (rest : List Frame) (base : Base rest)
      (stack : st.stack = .own (.rest (.finish source.ending source.notOk)) ::
        .part 0 (.sent true) :: asking rest)
      (parts : st.parts = [u]) (closing : Closing source size st.state u st.log)
      (received : received st.log = (vectors source size).map .value)
  /-- The end is delivered. -/
  | last (u : GeneratingStream source.State) (rest : List Frame) (base : Base rest)
      (stack : st.stack = .own .done :: .part 0 (.sent true) :: asking rest)
      (parts : st.parts = [u]) (closing : Closing source size st.state u st.log)
      (received : received st.log = events source size)
  /-- The streams are being destroyed. -/
  | destroying (u : GeneratingStream source.State) (rest : List Frame) (base : Base rest)
      (stack : st.stack = .own .done :: .part 0 .done :: asking rest)
      (parts : st.parts = [u]) (complete : Complete source size st.state st.log)
  | ended (u : GeneratingStream source.State) (base : Base st.stack) (parts : st.parts = [u])
      (complete : Complete source size st.state st.log)

section Books

variable {source : Source T} {size : Nat} {s : ChainingStream (List T)}
  {u : GeneratingStream source.State} {log : Log (List T) Unit (fun _ => T)} {pos k : Nat}

/-- One token is used up. -/
theorem Account.remove {b b' : RequestBalance} {used requested : Nat}
    (h : Account size b used requested) (hb : b.remove 1 = some b') :
    Account size b' (used + 1) requested := by
  rcases h with ⟨hmax, hdemand⟩ | ⟨hlt, heq⟩
  · rw [RequestBalance.remove_kMax _ _ hmax, Option.some.injEq] at hb
    exact Or.inl ⟨hb ▸ hmax, hdemand⟩
  · have hone := RequestBalance.remove_of_lt _ _ _ hlt hb
    right
    omega

/-- More vectors are asked for. The product is what it is without overflow. -/
theorem Account.add {b : RequestBalance} {used requested : Nat}
    (h : Account size b used requested) (n : Nat) (hfits : size * (requested + n) < 2 ^ 64) :
    Account size (b.add (size * n % 2 ^ 64)) used (requested + n) := by
  have hkMax : kMax = 2 ^ 64 - 1 := rfl
  rw [Nat.mul_add] at hfits
  rw [Nat.mod_eq_of_lt (by omega), Account, RequestBalance.balance_add, Nat.mul_add]
  rcases h with ⟨hmax, hdemand⟩ | ⟨hlt, heq⟩
  · left
    omega
  · omega

/-- What was asked for is enough to get to the end. -/
theorem Account.enough {b b' : RequestBalance} {used requested : Nat}
    (h : Account size b used requested) (hb : b.remove 1 = some b') :
    used < size * requested ∨ b.balance = kMax ∧ kMax ≤ size * requested := by
  rcases h with ⟨hmax, hdemand⟩ | ⟨hlt, heq⟩
  · exact Or.inr ⟨hmax, Nat.le_of_eq hdemand.symm⟩
  · have hone := RequestBalance.remove_of_lt _ _ _ hlt hb
    left
    omega

theorem Filling.length (h : Filling source size s u log pos k) :
    s.captured.length = pos - k * size := by
  have hle := h.le
  rw [h.buffer, List.length_take, List.length_drop]
  omega

/-- The buffer with one value more. -/
theorem Filling.push (h : Filling source size s u log pos k) (hpos : pos < source.values.length) :
    s.captured ++ [source.values[pos]] =
      (source.values.drop (k * size)).take (pos + 1 - k * size) := by
  have hlower := h.lower
  have hnext : k * size + (pos - k * size) = pos := by omega
  rw [show pos + 1 - k * size = pos - k * size + 1 by omega, List.take_add_one, ← h.buffer,
    List.getElem?_drop, hnext, List.getElem?_eq_getElem hpos, Option.toList_some]

/-- A value is made and put in the buffer. -/
theorem Filling.take (h : Filling source size s u log pos k) (hpos : pos < source.values.length)
    (b : RequestBalance) (hb : u.requested.remove 1 = some b) (hroom : pos + 1 < (k + 1) * size) :
    Filling source size { s with captured := s.captured ++ [source.values[pos]] }
      { u with requested := b, state := (source.generator u.state).2 }
      (.said 0 () (.onNext (.value source.values[pos])) :: log) (pos + 1) k where
  subscribed := h.subscribed
  base := h.base
  running := h.running
  alive := h.alive
  state := by rw [h.state]; exact source.stateAt_succ pos
  le := hpos
  balance := by
    rw [owing_cons, ← h.balance]
    exact (RequestBalance.counted_remove _ _ _ hb).symm
  account := h.account.remove hb
  received := (received_cons _ _).trans ((List.append_nil _).trans h.received)
  buffer := h.push hpos
  lower := Nat.le_succ_of_le h.lower
  upper := hroom

/-- A value is made that fills the buffer, and the vector is delivered. -/
theorem Filling.send (h : Filling source size s u log pos k) (hpos : pos < source.values.length)
    (b : RequestBalance) (hb : u.requested.remove 1 = some b) (hfull : pos + 1 = (k + 1) * size)
    (hsize : 1 ≤ size) :
    Filling source size { s with captured := [] }
      { u with requested := b, state := (source.generator u.state).2 }
      (.out (.onNext (.value (s.captured ++ [source.values[pos]]))) ::
        .said 0 () (.onNext (.value source.values[pos])) :: log) ((k + 1) * size) (k + 1) where
  subscribed := h.subscribed
  base := h.base
  running := h.running
  alive := h.alive
  state := by rw [h.state, ← hfull]; exact source.stateAt_succ pos
  le := by omega
  balance := by
    rw [owing_cons, owing_cons, ← h.balance]
    exact ((RequestBalance.counted_add _ _).trans ((RequestBalance.add_zero _).trans
      (RequestBalance.counted_remove _ _ _ hb))).symm
  account := hfull ▸ h.account.remove hb
  received := by
    have hchunk : s.captured ++ [source.values[pos]] = chunk size source.values k := by
      have hsucc : (k + 1) * size = k * size + size := Nat.succ_mul k size
      rw [h.push hpos, chunk, show pos + 1 - k * size = size by omega]
    rw [received_cons, received_cons, h.received, hchunk, List.range_succ, List.map_append]
    exact congrArg (· ++ _) (List.append_nil _)
  buffer := by rw [Nat.sub_self, List.take_zero]
  lower := Nat.le_refl _
  upper := by
    have hsucc : (k + 1 + 1) * size = (k + 1) * size + size := Nat.succ_mul (k + 1) size
    omega

/-- When the values have ended the buffer holds the last chunk. -/
theorem Filling.rest (h : Filling source size s u log pos k) (hlast : pos = source.values.length) :
    s.captured = chunk size source.values k := by
  have hsucc : (k + 1) * size = k * size + size := Nat.succ_mul k size
  have hupper := h.upper
  rw [h.buffer, chunk, List.take_of_length_le (by rw [List.length_drop]; omega),
    List.take_of_length_le (by rw [List.length_drop]; omega)]

/-- The buffer that is sent is empty. -/
theorem Filling.clear (h : Filling source size s u log (k * size) k) :
    Filling source size { s with captured := [] } u log (k * size) k :=
  ⟨h.subscribed, h.base, h.running, h.alive, h.state, h.le, h.balance, h.account, h.received,
    by rw [Nat.sub_self, List.take_zero], h.lower, h.upper⟩

/-- A call of the generator is answered by the delivery of an event. -/
theorem received_sent (o : Signal T) (e : StatusOr (List T))
    (log : Log (List T) Unit (fun _ => T)) :
    received (.out (.onNext e) :: .said 0 () o :: log) = received log ++ [e] := by
  rw [received_cons, received_cons]
  exact congrArg (· ++ [e]) (List.append_nil _)

/-- A request is added to the balance of the generator. -/
theorem owing_request (n m : Nat) (log : Log (List T) Unit (fun _ => T)) :
    owing 0 (.ask 0 (.request m) :: .call (.request n) :: log) = (owing 0 log).add m := by
  rw [owing_cons, owing_cons]
  exact (RequestBalance.counted_add _ _).trans (congrArg (·.add m)
    ((RequestBalance.counted_add _ _).trans (RequestBalance.add_zero _)))

/-- More vectors are asked for. -/
theorem Filling.request (h : Filling source size s u log pos k) (n : Nat)
    (hfits : size * (demand log + n) < 2 ^ 64) :
    Filling source size s { u with requested := u.requested.add (size * n % 2 ^ 64) }
      (.ask 0 (.request (size * n % 2 ^ 64)) :: .call (.request n) :: log) pos k where
  subscribed := h.subscribed
  base := h.base
  running := h.running
  alive := h.alive
  state := h.state
  le := h.le
  balance := by
    rw [owing_request, ← h.balance]
  account := h.account.add n hfits
  received := by
    rw [received_cons, received_cons, h.received]
    exact (List.append_nil _).trans (List.append_nil _)
  buffer := h.buffer
  lower := h.lower
  upper := h.upper

theorem Filling.generating (h : Filling source size s u log pos k) (b : Bool) :
    Filling source size s { u with generating := b } log pos k :=
  ⟨h.subscribed, h.base, h.running, h.alive, h.state, h.le, h.balance, h.account,
    h.received, h.buffer, h.lower, h.upper⟩

/-- A call that asks for nothing. -/
theorem enough_quiet {log : Log (List T) Unit (fun _ => T)} (n : Entry (List T) Unit (fun _ => T))
    (h : Enough source size log) (hdemand : n.demand = 0) (htokens : n.tokens 0 = 0)
    (hsupplied : n.supplied 0 = 0) : Enough source size (n :: log) := by
  rw [Enough, owing_cons, demand_cons, hdemand, htokens, hsupplied, RequestBalance.counted_add,
    RequestBalance.add_zero]
  exact h

/-- The end is not a value. -/
theorem supplied_end {e : StatusOr T} (h : e.isEnd = true) :
    Entry.supplied 0 (Note.said 0 () (.onNext e) : Entry (List T) Unit (fun _ => T)) = 0 := by
  change (if (0 : Nat) = 0 ∧ e.isEnd = false then 1 else 0) = 0
  rw [if_neg]
  exact fun hno => Bool.false_ne_true (hno.2.symm.trans h)

/-- The vectors are the full ones, and the rest if it is delivered. -/
theorem vectors_full (hsize : 1 ≤ size) (hlower : k * size ≤ source.values.length)
    (hupper : source.values.length < (k + 1) * size)
    (h : source.ending.code ≠ .outOfRange ∨ source.values.length = k * size) :
    vectors source size = (List.range k).map (chunk size source.values) := by
  have hsucc : (k + 1) * size = k * size + size := Nat.succ_mul k size
  have hdiv : source.values.length / size = k := by
    rw [Nat.div_eq_iff (by omega)]
    omega
  unfold vectors
  by_cases hdone : source.ending.code = .outOfRange
  · rw [if_pos hdone]
    have heq := h.resolve_left (fun hne => hne hdone)
    have hceil : (source.values.length + size - 1) / size = k := by
      rw [Nat.div_eq_iff (by omega)]
      omega
    rw [hceil]
  · rw [if_neg hdone, hdiv]

theorem vectors_partly (hsize : 1 ≤ size) (hlower : k * size < source.values.length)
    (hupper : source.values.length < (k + 1) * size) (h : source.ending.code = .outOfRange) :
    vectors source size = (List.range (k + 1)).map (chunk size source.values) := by
  have hsucc : (k + 1) * size = k * size + size := Nat.succ_mul k size
  have hceil : (source.values.length + size - 1) / size = k + 1 := by
    rw [Nat.div_eq_iff (by omega)]
    omega
  rw [vectors, if_pos h, hceil]

end Books

section Run

variable {source : Source T} {size : Nat} {Inv : Machine source size → Prop}

/-- The only part. -/
theorem part_get {U : Type} {parts : List U} {u : U} (h : parts = [u]) : parts[0]? = some u := by
  rw [h]
  rfl

theorem part_set {U : Type} {parts : List U} {u : U} (h : parts = [u]) (u' : U) :
    parts.set 0 u' = [u'] := by
  rw [h]
  rfl

/-- A request returns to the subscriber. -/
theorem settles_asked {st : Machine source size} {rest : List Frame}
    (hstack : st.stack = asking rest) (h : Inv { st with turn := .outside, stack := rest }) :
    Linked.Settles subscriptionCheck Inv (Linked.back st) := by
  rw [Linked.back_own hstack]
  exact .of_run (st.state, .ret) rfl rfl (Linked.settles_of_outside _ rfl h)

/-- A round of the loop of the generator in which it makes an event. -/
theorem settles_event {st : Machine source size} {u : GeneratingStream source.State}
    {b : RequestBalance} (hturn : st.turn = .part 0 .generate) (hparts : st.parts = [u])
    (hmore : u.requested.hasRequests = true) (hb : u.requested.remove 1 = some b)
    (h : Linked.Settles subscriptionCheck Inv { st with
      parts := [{ u with requested := b, state := (source.generator u.state).2 }]
      turn := .said 0 () (.onNext (source.generator u.state).1)
      stack := .part 0 (.sent (source.generator u.state).1.isEnd) :: st.stack
      log := .said 0 () (.onNext (source.generator u.state).1) :: st.log }) :
    Linked.Settles subscriptionCheck Inv st := by
  refine .of_part ({ u with requested := b, state := (source.generator u.state).2 },
    .out (.onNext (source.generator u.state).1) (.sent (source.generator u.state).1.isEnd))
    hturn (part_get hparts) ?_ ?_
  · change u.generate source.generator = _
    rw [GeneratingStream.generate, if_pos hmore]
    simp only [hb]
  · rw [Linked.answer, part_set hparts]
    exact h

/-- After a value the loop goes on. -/
theorem settles_sent {st : Machine source size} {u : GeneratingStream source.State}
    (hturn : st.turn = .part 0 (.sent false)) (hparts : st.parts = [u])
    (halive : u.hasEnded = false)
    (h : Linked.Settles subscriptionCheck Inv { st with turn := .part 0 .generate }) :
    Linked.Settles subscriptionCheck Inv st := by
  refine .of_part (u, .goto .generate) hturn (part_get hparts) ?_ ?_
  · change u.sent false = _
    rw [GeneratingStream.sent, halive]
    rfl
  · rw [Linked.answer, part_set hparts, ← hparts]
    exact h

/-- What `func` does with a value. -/
theorem said_value (views : Nat → Bool) (s : ChainingStream (List T)) (v : T) :
    (ChainingStream.component (ChainingFunc.buffer (T := T) size)).said views s 0 ()
        (.onNext (.value v)) =
      if s.captured.length + 1 = size then
        ({ s with captured := [] }, .out (.onNext (.value (s.captured ++ [v]))) (.rest .clear))
      else ({ s with captured := s.captured ++ [v] }, .ret) := by
  change ChainingStream.send (ChainingFunc.buffer size) s (if (s.captured ++ [v]).length = size then
    ([], some (.value (s.captured ++ [v]), some .clear)) else (s.captured ++ [v], none)) = _
  rw [List.length_append, List.length_singleton]
  by_cases hfull : s.captured.length + 1 = size
  · rw [if_pos hfull, if_pos hfull]
    rfl
  · rw [if_neg hfull, if_neg hfull]
    rfl

/-- What it does with the status. -/
theorem said_status (views : Nat → Bool) (s : ChainingStream (List T)) (e : Status)
    (h : e.code ≠ .ok) :
    (ChainingStream.component (ChainingFunc.buffer (T := T) size)).said views s 0 ()
        (.onNext (.status e h)) =
      if e.code = .outOfRange ∧ 0 < s.captured.length then
        ({ s with captured := [] }, .out (.onNext (.value s.captured)) (.rest (.finish e h)))
      else (s, .out (.onNext (.status e h)) .done) := by
  change ChainingStream.send (ChainingFunc.buffer size) s
    (if e.code = .outOfRange ∧ 0 < s.captured.length then
      ([], some (.value s.captured, some (.finish e h))) else
      (s.captured, some (.status e h, none))) = _
  by_cases hrest : e.code = .outOfRange ∧ 0 < s.captured.length
  · rw [if_pos hrest, if_pos hrest]
    rfl
  · rw [if_neg hrest, if_neg hrest]
    rfl

/-- The rest of `func` runs while the stream is there. -/
theorem resumes (views : Nat → Bool) {s : ChainingStream (List T)} (h : s.hasEnded = false)
    (r : ChainingFunc.BufferRest) :
    (ChainingStream.component (ChainingFunc.buffer (T := T) size)).resume views s (.rest r) =
      ChainingStream.send (ChainingFunc.buffer size) s
        ((ChainingFunc.buffer (T := T) size).resume s.captured r) :=
  if_neg (by rw [h]; exact Bool.false_ne_true)

/-- The loop of the generator runs until a vector is full, the values have
    ended, or nothing more is asked for. The induction is on the room that is
    left in the buffer. -/
theorem generate_loop (hsize : 1 ≤ size) (rest : List Frame) (hbase : Base rest)
    (st : Machine source size) (u : GeneratingStream source.State) (pos k : Nat)
    (hturn : st.turn = .part 0 .generate) (hstack : st.stack = asking rest)
    (hparts : st.parts = [u]) (h : Filling source size st.state u st.log pos k)
    (hgenerating : u.generating = true) :
    Linked.Settles subscriptionCheck
      (fun st' => Standing st' ∧ st'.state.hasEnded = false ∧
        ((received st'.log).length = k ∧ st'.stack.length = rest.length ∨
          (received st'.log).length = k + 1 ∧ st'.stack.length = rest.length + 4)) st := by
  induction hroom : (k + 1) * size - pos generalizing st u pos with
  | zero =>
      have hupper := h.upper
      omega
  | succ m ih =>
      have hcount := congrArg List.length h.received
      rw [List.length_map, List.length_range] at hcount
      by_cases hmore : u.requested.hasRequests = true
      · rcases RequestBalance.remove_isSome _ ((RequestBalance.hasRequests_iff _).mp hmore)
          with ⟨b, hb⟩
        refine settles_event hturn hparts hmore hb ?_
        by_cases hpos : pos < source.values.length
        · have hvalue : (source.generator u.state).1 = .value source.values[pos] := by
            rw [h.state]
            exact source.generator_value pos hpos
          rw [hvalue]
          by_cases hfull : pos + 1 = (k + 1) * size
          · -- The vector is full and is delivered.
            have hlength : st.state.captured.length + 1 = size := by
              have hsucc : (k + 1) * size = k * size + size := Nat.succ_mul k size
              rw [h.length]
              omega
            have hsend := h.send hpos b hb hfull hsize
            refine .of_said _ rfl ((said_value _ st.state _).trans (if_pos hlength)) ?_
            refine Linked.settles_of_outside _ rfl ⟨?_, h.running, Or.inr ⟨?_, ?_⟩⟩
            · exact .full _ (k + 1) rest hbase (congrArg (_ :: _ :: ·) hstack) rfl hsend
                hgenerating
            · refine (congrArg List.length (received_sent _ _ st.log)).trans ?_
              rw [List.length_append, hcount, List.length_singleton]
            · exact congrArg (List.length <| _ :: _ :: ·) hstack
          · -- The value stays in the buffer, and the loop goes on.
            have hlength : ¬st.state.captured.length + 1 = size := by
              have hsucc : (k + 1) * size = k * size + size := Nat.succ_mul k size
              have hlower := h.lower
              rw [h.length]
              omega
            have hupper := h.upper
            have htake := h.take hpos b hb (by omega)
            refine .of_said _ rfl ((said_value _ st.state _).trans (if_neg hlength)) ?_
            refine settles_sent rfl rfl h.alive ?_
            exact ih _ _ (pos + 1) rfl hstack rfl htake hgenerating (by omega)
        · -- The values have ended.
          have hlast : pos = source.values.length := by
            have hle := h.le
            omega
          have hending : (source.generator u.state).1 =
              .status source.ending source.notOk := by
            rw [h.state, hlast]
            exact source.generator_ending
          have hisEnd : (.status source.ending source.notOk : StatusOr T).isEnd = true :=
            StatusOr.isEnd_status _ _
          rw [hending, hisEnd]
          have hclosing : ∀ s : ChainingStream (List T), s.baseSubscription = some 0 →
              s.hasEnded = false → ∀ event : StatusOr (List T), Closing source size s
              { u with requested := b, state := (source.generator u.state).2 }
              (.out (.onNext event) :: .said 0 () (.onNext
                (.status source.ending source.notOk)) :: st.log) := by
            intro s hbase hrunning event
            have henough : Enough source size st.log := by
              rw [Enough, ← h.balance]
              exact hlast ▸ h.account.enough hb
            exact ⟨h.subscribed, hbase, hrunning, h.alive, hgenerating,
              enough_quiet _ (enough_quiet _ henough rfl rfl (supplied_end hisEnd)) rfl rfl rfl⟩
          have hone : ∀ event : StatusOr (List T), (received (.out (.onNext event) ::
              .said 0 () (.onNext (.status source.ending source.notOk)) :: st.log)).length =
              k + 1 := by
            intro event
            rw [received_sent, List.length_append, hcount, List.length_singleton]
          by_cases hrest : source.ending.code = .outOfRange ∧ 0 < st.state.captured.length
          · -- The rest of the values is delivered first.
            have hlower : k * size < source.values.length := by
              have hlength := h.length
              omega
            refine .of_said _ rfl ((said_status _ st.state _ _).trans (if_pos hrest)) ?_
            refine Linked.settles_of_outside _ rfl ⟨?_, h.running, Or.inr ⟨hone _, ?_⟩⟩
            · refine .partly _ rest hbase (congrArg (_ :: _ :: ·) hstack) rfl
                (hclosing { st.state with captured := [] } h.base h.running _) ?_
              refine (received_sent _ _ st.log).trans ?_
              rw [h.received, vectors_partly hsize hlower (hlast ▸ h.upper) hrest.1, h.rest hlast,
                List.map_map, List.range_succ, List.map_append]
              rfl
            · exact congrArg (List.length <| _ :: _ :: ·) hstack
          · -- The status is delivered.
            have hnone : source.ending.code ≠ .outOfRange ∨ source.values.length = k * size := by
              by_cases hdone : source.ending.code = .outOfRange
              · right
                have hempty : ¬0 < st.state.captured.length := fun hpos => hrest ⟨hdone, hpos⟩
                have hlower := h.lower
                rw [h.length] at hempty
                omega
              · exact Or.inl hdone
            refine .of_said _ rfl ((said_status _ st.state _ _).trans (if_neg hrest)) ?_
            refine Linked.settles_of_outside _ rfl ⟨?_, h.running, Or.inr ⟨hone _, ?_⟩⟩
            · refine .last _ rest hbase (congrArg (_ :: _ :: ·) hstack) rfl
                (hclosing st.state h.base h.running _) ?_
              refine (received_sent _ _ st.log).trans ?_
              rw [h.received, events, valuesThen,
                vectors_full hsize (hlast ▸ h.lower) (hlast ▸ h.upper) hnone, List.map_map]
              rfl
            · exact congrArg (List.length <| _ :: _ :: ·) hstack
      · -- Nothing more is asked for.
        rw [Bool.not_eq_true] at hmore
        have hserved : u.requested.balance = 0 := by
          simpa only [RequestBalance.hasRequests, decide_eq_false_iff_not, Nat.not_lt,
            Nat.le_zero] using hmore
        refine .of_part ({ u with generating := false }, .ret) hturn (part_get hparts) ?_ ?_
        · change u.generate source.generator = _
          rw [GeneratingStream.generate, hmore]
          rfl
        · rw [Linked.answer, part_set hparts]
          refine settles_asked hstack ⟨?_, h.running, Or.inl ⟨hcount, rfl⟩⟩
          exact .waiting _ pos k hbase rfl (h.generating false) rfl hserved

/-- A request is passed on to the generator. -/
theorem call_request {st : Machine source size} {u : GeneratingStream source.State} {n : Nat}
    (hparts : st.parts = [u]) (hbase : st.state.baseSubscription = some 0)
    (halive : u.hasEnded = false)
    (h : Linked.Settles subscriptionCheck Inv (Linked.answer { st with
      turn := .ask 0 (.request (size * n % 2 ^ 64))
      stack := .own .done :: .env :: st.stack
      log := .ask 0 (.request (size * n % 2 ^ 64)) :: .call (.request n) :: st.log } 0 ()
      (u.request (size * n % 2 ^ 64)))) :
    Linked.Settles subscriptionCheck Inv (st.call subscriptionCheck (.request n)) := by
  have hcode : (ChainingStream.component (ChainingFunc.buffer (T := T) size)).call st.views st.state
      (.request n) = (st.state, .ask 0 (.request (size * n % 2 ^ 64)) .done) := by
    change ChainingStream.request _ st.state n = _
    rw [ChainingStream.request, hbase]
    rfl
  have hopen : subscriptionCheck (st.views 0) (.request (size * n % 2 ^ 64)) = none := by
    rw [Linked.views_eq (part_get hparts)]
    change subscriptionCheck u.hasEnded _ = none
    rw [halive, subscriptionCheck_false]
  rw [Linked.call, hcode, Linked.perform_ask _ _ _ _ _ _ hopen]
  exact .of_ask _ rfl (part_get hparts) rfl h

/-- The generator is in its loop, and the request returns at once. -/
theorem call_busy {st : Machine source size} {u : GeneratingStream source.State} {n : Nat}
    (hparts : st.parts = [u]) (hbase : st.state.baseSubscription = some 0)
    (halive : u.hasEnded = false) (hgenerating : u.generating = true)
    (h : Inv { st with
      turn := .outside
      parts := [{ u with requested := u.requested.add (size * n % 2 ^ 64) }]
      log := .ask 0 (.request (size * n % 2 ^ 64)) :: .call (.request n) :: st.log }) :
    Linked.Settles subscriptionCheck Inv (st.call subscriptionCheck (.request n)) := by
  refine call_request hparts hbase halive ?_
  have hcode : (u.request (size * n % 2 ^ 64) : GeneratingStream.Result source.State T) =
      ({ u with requested := u.requested.add (size * n % 2 ^ 64) }, .ret) := by
    rw [GeneratingStream.request]
    simp only [hgenerating, if_true]
  rw [hcode, Linked.answer, part_set hparts]
  exact .of_run (st.state, .ret) rfl rfl (Linked.settles_of_outside _ rfl h)

/-- Asking for more does not bring the end back. -/
theorem Closing.request {s : ChainingStream (List T)} {u : GeneratingStream source.State}
    {log : Log (List T) Unit (fun _ => T)} (h : Closing source size s u log) (n : Nat)
    (b : RequestBalance) :
    Closing source size s { u with requested := b }
      (.ask 0 (.request (size * n % 2 ^ 64)) :: .call (.request n) :: log) where
  subscribed := h.subscribed
  base := h.base
  running := h.running
  alive := h.alive
  generating := h.generating
  enough := by
    rw [Enough, owing_request, RequestBalance.balance_add]
    change _ < size * (demand log + n) ∨ _ ∧ _ ≤ size * (demand log + n)
    rw [Nat.mul_add]
    rcases h.enough with hlt | ⟨hmax, hle⟩
    · left
      omega
    · right
      omega

/-- A request that does not deliver anything. -/
theorem received_request (n m : Nat) (log : Log (List T) Unit (fun _ => T)) :
    received (.ask 0 (.request m) :: .call (.request n) :: log) = received log := by
  rw [received_cons, received_cons]
  exact (List.append_nil _).trans (List.append_nil _)

/-- After every call of the subscriber it gets its turn. -/
theorem standing_call (hsize : 1 ≤ size) (st : Machine source size) (c : Call)
    (h : Standing st) (hopen : subscriptionCheck st.state.hasEnded c = none)
    (hok : Requests st c) :
    Linked.Settles subscriptionCheck Standing (st.call subscriptionCheck c) := by
  cases c with
  | cancel => exact hok.elim
  | subscribe =>
      have hlog : st.log = [] := List.isEmpty_iff.mp hok
      -- only a fresh stream has not been subscribed to
      have hno : subscribed st.log = true → False := by
        intro hyes
        rw [hlog] at hyes
        exact Bool.false_ne_true hyes
      cases h with
      | waiting u pos k base parts filling => exact (hno filling.subscribed).elim
      | full u k rest base stack parts filling => exact (hno filling.subscribed).elim
      | partly u rest base stack parts closing => exact (hno closing.subscribed).elim
      | last u rest base stack parts closing => exact (hno closing.subscribed).elim
      | destroying u rest base stack parts complete => exact (hno complete.subscribed).elim
      | ended u base parts complete => exact (hno complete.subscribed).elim
      | fresh start =>
          subst start
          refine .of_ask (u := { state := source.initial }) ({ state := source.initial },
            .out .onSubscribe .done) rfl rfl rfl ?_
          refine .of_said (_, .out .onSubscribe .done) rfl rfl ?_
          refine Linked.settles_of_outside _ rfl ?_
          refine .waiting { state := source.initial } 0 0 .subscribing rfl ?_ rfl rfl
          have hzero : 0 < kMax := by decide
          exact
            { subscribed := rfl
              base := rfl
              running := rfl
              alive := rfl
              state := rfl
              le := Nat.zero_le _
              balance := rfl
              account := Or.inr ⟨hzero, (Nat.mul_zero size).symm⟩
              received := rfl
              buffer := by rw [Nat.zero_mul, Nat.sub_zero, List.take_zero]; rfl
              lower := Nat.le_of_eq (Nat.zero_mul size)
              upper := by rw [Nat.zero_add, Nat.one_mul]; exact hsize }
  | request n =>
      rcases hok with ⟨hsubscribed, -, hfits⟩
      cases h with
      | fresh start =>
          subst start
          exact absurd hsubscribed Bool.false_ne_true
      -- at rest the request starts the loop of the generator
      | waiting u pos k base parts filling generating served =>
          refine call_request parts filling.base filling.alive ?_
          have hcode : (u.request (size * n % 2 ^ 64) : GeneratingStream.Result source.State T) =
              ({ u with requested := u.requested.add (size * n % 2 ^ 64), generating := true },
                .goto .generate) := by
            rw [GeneratingStream.request]
            simp only [generating, Bool.false_eq_true, if_false]
          rw [hcode, Linked.answer, part_set parts]
          exact .mono (generate_loop hsize st.stack base _ _ pos k rfl rfl rfl
            ((filling.request n hfits).generating true) rfl) fun st' hst' => hst'.1
      -- inside an OnNext the loop is running and will see the balance
      | full u k rest base stack parts filling generating =>
          exact call_busy parts filling.base filling.alive generating
            (.full _ k rest base stack rfl (filling.request n hfits) generating)
      | partly u rest base stack parts closing received =>
          exact call_busy parts closing.base closing.alive closing.generating
            (.partly _ rest base stack rfl (closing.request n _)
              ((received_request n _ st.log).trans received))
      | last u rest base stack parts closing received =>
          exact call_busy parts closing.base closing.alive closing.generating
            (.last _ rest base stack rfl (closing.request n _)
              ((received_request n _ st.log).trans received))
      | destroying u rest base stack parts complete =>
          rw [complete.hasEnded] at hopen
          cases hopen
      | ended u base parts complete =>
          rw [complete.hasEnded] at hopen
          cases hopen

/-- What is left to do: events that were not delivered yet, calls that have not
    returned, and the destruction of the stream. -/
def work (source : Source T) (size delivered calls : Nat) (hasEnded : Bool) : Nat :=
  6 * ((events source size).length - delivered) + calls + if hasEnded then 0 else 1

def remaining (st : Machine source size) : Nat :=
  work source size (received st.log).length st.stack.length st.state.hasEnded

/-- A call returns and nothing else happens. -/
theorem work_return (delivered : Nat) {calls calls' : Nat} (hasEnded : Bool)
    (h : calls < calls') :
    work source size delivered calls hasEnded < work source size delivered calls' hasEnded :=
  Nat.add_lt_add_right (Nat.add_lt_add_left h _) _

/-- One event more is delivered, which makes up for the calls in which it
    is. -/
theorem work_deliver {delivered calls : Nat} (calls' : Nat) (hasEnded : Bool)
    (h : delivered < (events source size).length) (hcalls : calls ≤ calls' + 4) :
    work source size (delivered + 1) calls hasEnded <
      work source size delivered calls' hasEnded := by
  unfold work
  omega

/-- `OnSubscribe` of the subscriber returns. -/
theorem reply_base {st : Machine source size} {u : GeneratingStream source.State}
    (hbase : Base st.stack) (hne : st.stack ≠ []) (hparts : st.parts = [u])
    (h : Inv { st with turn := .outside, stack := [] }) :
    Linked.Settles subscriptionCheck Inv st.reply := by
  generalize hstack : st.stack = stack at hbase hne
  cases hbase with
  | nil => exact absurd rfl hne
  | subscribing =>
      rw [Linked.reply_own hstack]
      refine .of_run (st.state, .ret) rfl rfl ?_
      rw [Linked.perform, Linked.back_part rfl]
      refine .of_part (u, .ret) rfl (part_get hparts) rfl ?_
      rw [Linked.answer, part_set hparts, ← hparts, Linked.back_own rfl]
      exact .of_run (st.state, .ret) rfl rfl (Linked.settles_of_outside _ rfl h)

/-- The number of vectors. -/
theorem Filling.le_vectors {s : ChainingStream (List T)} {u : GeneratingStream source.State}
    {log : Log (List T) Unit (fun _ => T)} {pos k : Nat} (hsize : 1 ≤ size)
    (h : Filling source size s u log pos k) : k ≤ (vectors source size).length := by
  have hle := h.le
  have hlower := h.lower
  have hfull : k ≤ source.values.length / size := by
    rw [Nat.le_div_iff_mul_le hsize]
    omega
  unfold vectors
  by_cases hdone : source.ending.code = .outOfRange
  · rw [if_pos hdone, List.length_map, List.length_range]
    exact Nat.le_trans hfull (Nat.div_le_div_right (by omega))
  · rw [if_neg hdone, List.length_map, List.length_range]
    exact hfull

theorem length_events : (events source size).length = (vectors source size).length + 1 := by
  rw [events, valuesThen, List.length_append, List.length_map, List.length_singleton]

/-- When the subscriber returns it gets its turn again, and less is left to
    do. -/
theorem standing_reply (hsize : 1 ≤ size) (st : Machine source size) (h : Standing st)
    (hne : st.stack ≠ []) :
    Linked.Settles subscriptionCheck (fun st' => Standing st' ∧ remaining st' < remaining st)
      st.reply := by
  cases h with
  | fresh start =>
      subst start
      exact absurd rfl hne
  | waiting u pos k base parts filling generating served =>
      exact reply_base base hne parts ⟨.waiting u pos k .nil parts filling generating served,
        work_return _ _ (List.length_pos_iff.mpr hne)⟩
  | full u k rest base stack parts filling generating =>
      -- The buffer is cleared, which is empty, and the loop goes on.
      have hcode : (ChainingStream.component (ChainingFunc.buffer (T := T) size)).resume st.views
          st.state (.rest .clear) = ({ st.state with captured := [] }, .ret) :=
        resumes st.views filling.running .clear
      have hcount : (received st.log).length = k := by
        rw [filling.received, List.length_map, List.length_range]
      have hlength : st.stack.length = rest.length + 4 := congrArg List.length stack
      have hvectors := filling.le_vectors hsize
      rw [Linked.reply_own stack]
      refine .of_run _ rfl hcode ?_
      rw [Linked.perform, Linked.back_part rfl]
      refine settles_sent rfl parts filling.alive ?_
      refine .mono (generate_loop hsize rest base _ u (k * size) k rfl rfl parts filling.clear
        generating) fun st' hst' => ⟨hst'.1, ?_⟩
      rw [remaining, remaining, filling.running, hst'.2.1, hcount, hlength]
      rcases hst'.2.2 with ⟨hreceived, hstack⟩ | ⟨hreceived, hstack⟩
      · rw [hreceived, hstack]
        exact work_return _ _ (by omega)
      · rw [hreceived, hstack]
        exact work_deliver _ _ (by rw [length_events]; omega) (by omega)
  | partly u rest base stack parts closing received =>
      -- The end follows the rest of the values.
      have hcode : (ChainingStream.component (ChainingFunc.buffer (T := T) size)).resume st.views
          st.state (.rest (.finish source.ending source.notOk)) =
          (st.state, .out (.onNext (.status source.ending source.notOk)) .done) :=
        resumes st.views closing.running (.finish source.ending source.notOk)
      have hall : RxCppUniq.received (.out (.onNext (.status source.ending source.notOk)) ::
          st.log) = events source size := by
        rw [received_cons, received]
        rfl
      have hlength : st.stack.length = rest.length + 4 := congrArg List.length stack
      rw [Linked.reply_own stack]
      refine .of_run _ rfl hcode (Linked.settles_of_outside _ rfl ⟨?_, ?_⟩)
      · exact .last u rest base rfl parts ⟨closing.subscribed, closing.base, closing.running,
          closing.alive, closing.generating, enough_quiet _ closing.enough rfl rfl rfl⟩ hall
      · change work source size (RxCppUniq.received (.out (.onNext _) :: st.log)).length
          (rest.length + 4) st.state.hasEnded < _
        rw [remaining, hall, received, hlength, length_events, List.length_map]
        exact work_deliver _ _ (by rw [length_events]; omega) (by omega)
  | last u rest base stack parts closing received =>
      -- The generator deletes itself, and the buffer with it.
      have hcode : (GeneratingStream.parts source.generator source.initial).resume u (.sent true) =
          ({ u with hasEnded := true }, .out .destroy .done) := by
        change u.sent true = _
        rw [GeneratingStream.sent, closing.alive]
        rfl
      have hsame : RxCppUniq.received (.out .destroy :: .said 0 () .destroy :: st.log) =
          RxCppUniq.received st.log := by
        rw [received_cons, received_cons]
        exact (List.append_nil _).trans (List.append_nil _)
      have hlength : st.stack.length = rest.length + 4 := congrArg List.length stack
      rw [Linked.reply_own stack]
      refine .of_run (st.state, .ret) rfl rfl ?_
      rw [Linked.perform, Linked.back_part rfl]
      refine .of_part _ rfl (part_get parts) hcode ?_
      rw [Linked.answer, part_set parts]
      refine .of_said ({ st.state with hasEnded := true }, .out .destroy .done) rfl rfl ?_
      refine Linked.settles_of_outside _ rfl ⟨?_, ?_⟩
      · exact .destroying _ rest base rfl rfl ⟨closing.subscribed, rfl, enough_quiet _
          (enough_quiet _ closing.enough rfl rfl rfl) rfl rfl rfl, hsame.trans received⟩
      · change work source size (RxCppUniq.received (.out .destroy :: .said 0 () .destroy ::
          st.log)).length (rest.length + 4) true < _
        rw [remaining, hsame, closing.running, hlength]
        exact Nat.lt_succ_self _
  | destroying u rest base stack parts complete =>
      have hlength : st.stack.length = rest.length + 4 := congrArg List.length stack
      rw [Linked.reply_own stack]
      refine .of_run (st.state, .ret) rfl rfl ?_
      rw [Linked.perform, Linked.back_part rfl]
      refine .of_part (u, .ret) rfl (part_get parts) rfl ?_
      rw [Linked.answer, part_set parts, ← parts]
      refine settles_asked rfl ⟨.ended u base parts complete, ?_⟩
      rw [remaining, remaining, hlength]
      exact work_return _ _ (show rest.length < rest.length + 4 by omega)
  | ended u base parts complete =>
      exact reply_base base hne parts ⟨.ended u .nil parts complete,
        work_return _ _ (List.length_pos_iff.mpr hne)⟩

end Run

section Delivery

variable {source : Source T} {size : Nat}

/-- The states that runs reach in which the subscriber only requests. -/
abbrev Reach (source : Source T) (size : Nat) : Machine source size → Prop :=
  Linked.Reach subscriptionCheck Requests [{ state := source.initial }]

theorem Reach.settles {st : Machine source size} (hsize : 1 ≤ size) (h : Reach source size st) :
    Linked.Settles subscriptionCheck Standing st := by
  refine Linked.Reach.settles Standing (.fresh rfl) (fun st c hst _ hopen hok =>
    standing_call hsize st c hst hopen hok) (fun st hst hturn => ?_) st h
  by_cases hstack : st.stack = []
  · have hreply : st.reply = st := by
      rw [Linked.reply, hstack]
    rw [hreply]
    exact Linked.settles_of_outside _ hturn hst
  · exact .mono (standing_reply hsize st hst hstack) fun st' hst' => hst'.1

/-- All calls return when the subscriber does. -/
theorem Reach.rests {st : Machine source size} (hsize : 1 ≤ size) (h : Reach source size st) :
    ∃ n, Linked.AtRest (Linked.follows subscriptionCheck n st) ∧
      Standing (Linked.follows subscriptionCheck n st) :=
  Linked.rests remaining (fun st hst _ hstack => standing_reply hsize st hst hstack) st
    (h.settles hsize)

/-- As many vectors are delivered as there are, when enough values were asked
    for. -/
theorem length_vectors_le (hsize : 1 ≤ size) (n : Nat) (h : source.values.length < size * n) :
    (vectors source size).length ≤ n := by
  have hcomm : n * size = size * n := Nat.mul_comm n size
  have hceil : (source.values.length + size - 1) / size ≤ n := by
    rw [Nat.div_le_iff_le_mul (by omega)]
    omega
  unfold vectors
  by_cases hdone : source.ending.code = .outOfRange
  · rw [if_pos hdone, List.length_map, List.length_range]
    exact hceil
  · rw [if_neg hdone, List.length_map, List.length_range]
    exact Nat.le_trans (Nat.div_le_div_right (by omega)) hceil

/-- All that there is to be delivered is due then. -/
theorem due_all (hsize : 1 ≤ size) {n : Nat} (h : source.values.length < size * n) :
    due source size n = events source size := by
  rw [due, if_pos h, List.take_of_length_le (length_vectors_le hsize n h)]
  rfl

/-- The first vectors are full chunks. -/
theorem take_vectors (hsize : 1 ≤ size) (k : Nat) (h : k * size ≤ source.values.length) :
    (vectors source size).take k = (List.range k).map (chunk size source.values) := by
  have hfull : k ≤ source.values.length / size := by
    rwa [Nat.le_div_iff_mul_le hsize]
  have hceil : source.values.length / size ≤ (source.values.length + size - 1) / size :=
    Nat.div_le_div_right (by omega)
  unfold vectors
  by_cases hdone : source.ending.code = .outOfRange
  · rw [if_pos hdone, ← List.map_take, List.take_range, Nat.min_eq_left (by omega)]
  · rw [if_neg hdone, ← List.map_take, List.take_range, Nat.min_eq_left hfull]

/-- What was delivered when all calls have returned. -/
theorem Standing.received_eq {st : Machine source size} (hsize : 1 ≤ size) (h : Standing st)
    (hstack : st.stack = []) :
    received st.log = if (owing 0 st.log).balance = kMax ∧ kMax ≤ size * demand st.log
      then events source size else due source size (demand st.log) := by
  have hpos : 0 < kMax := by decide
  cases h with
  | fresh start =>
      subst start
      rw [if_neg]
      · simp only [due, received_nil, demand_nil, List.take_zero, List.map_nil, Nat.mul_zero,
          Nat.not_lt_zero, if_false, List.append_nil]
      · rintro ⟨hmax, -⟩
        rw [owing_nil, RequestBalance.balance_zero] at hmax
        omega
  | waiting u pos k base parts filling generating served =>
      have hserved : (owing 0 st.log).balance = 0 := filling.balance ▸ served
      have haccount : pos = size * demand st.log := by
        rcases filling.account with ⟨hmax, -⟩ | ⟨-, heq⟩
        · omega
        · omega
      have hle := filling.le
      have hlower := filling.lower
      have hupper := filling.upper
      rw [haccount, Nat.mul_comm size] at hlower hupper
      -- as many full vectors as were requested
      have hk : k = demand st.log := by
        have h1 := Nat.le_of_mul_le_mul_right hlower hsize
        have h2 := Nat.lt_of_mul_lt_mul_right hupper
        omega
      rw [if_neg (by omega), due, if_neg (by omega), List.append_nil, filling.received, ← hk,
        take_vectors hsize k (Nat.le_trans filling.lower filling.le), List.map_map]
      rfl
  | full u k rest base stack parts filling generating =>
      rw [hstack] at stack
      cases stack
  | partly u rest base stack parts closing received =>
      rw [hstack] at stack
      cases stack
  | last u rest base stack parts closing received =>
      rw [hstack] at stack
      cases stack
  | destroying u rest base stack parts complete =>
      rw [hstack] at stack
      cases stack
  | ended u base parts complete =>
      rw [complete.received]
      rcases complete.enough with hlt | hmax
      · by_cases hmax : (owing 0 st.log).balance = kMax ∧ kMax ≤ size * demand st.log
        · rw [if_pos hmax]
        · rw [if_neg hmax, due_all hsize hlt]
      · rw [if_pos hmax]

/-- When the subscriber only returns nothing more is asked for. -/
theorem demand_uncalled {log log' : Log (List T) Unit (fun _ => T)}
    (h : Linked.Uncalled log log') : demand log' = demand log := by
  rcases h with ⟨new, rfl, hnew⟩
  induction new with
  | nil => rfl
  | cons n new ih =>
      have hquiet : Entry.demand n = 0 := by
        cases n with
        | call c => exact absurd List.mem_cons_self (hnew c)
        | out o => rfl
        | ask p c => rfl
        | said p i o => rfl
      rw [List.cons_append, demand_cons, hquiet, ih fun c hc => hnew c (List.mem_cons_of_mem n hc)]
      rfl

/-- An infinite balance stays infinite. -/
theorem owing_infinite {log : Log (List T) Unit (fun _ => T)} (h : (owing 0 log).balance = kMax)
    (new : Log (List T) Unit (fun _ => T)) : (owing 0 (new ++ log)).balance = kMax := by
  induction new with
  | nil => exact h
  | cons n new ih =>
      have hadd : ((owing 0 (new ++ log)).add (Entry.tokens 0 n)).balance = kMax := by
        rw [RequestBalance.balance_add, ih]
        omega
      rw [List.cons_append, owing_cons, RequestBalance.counted,
        RequestBalance.remove_kMax _ _ hadd]
      exact hadd

/-- What is delivered in a run, when the subscriber has returned from all
    calls. -/
structure Delivers (st : Machine source size) : Prop where
  /-- No check fails. -/
  checked : ∀ msg, st.turn ≠ .failed msg
  received : ∃ n, Linked.AtRest (Linked.follows subscriptionCheck n st) ∧
    received (Linked.follows subscriptionCheck n st).log = due source size (demand st.log)

/-- The chunks of the values are delivered, as many as were asked for, and then
    the status if more values were asked for than there are. -/
theorem buffer_chunks (source : Source T) (size : Nat) (hsize : 1 ≤ size)
    (st : Machine source size) (h : Reach source size st)
    (hfinite : size * demand st.log < kMax ∨ source.values.length < kMax) : Delivers st := by
  refine ⟨(h.settles hsize).not_failed, ?_⟩
  rcases h.rests hsize with ⟨n, hrest, hstanding⟩
  have hdemand := demand_uncalled (Linked.follows_uncalled subscriptionCheck n st)
  refine ⟨n, hrest, ?_⟩
  rw [hstanding.received_eq hsize hrest.2, hdemand]
  by_cases hmax : (owing 0 (Linked.follows subscriptionCheck n st).log).balance = kMax ∧
      kMax ≤ size * demand st.log
  · rw [if_pos hmax]
    exact (due_all hsize (by omega)).symm
  · rw [if_neg hmax]

end Delivery

section Examples

/-- The publisher was subscribed to. -/
def opened (source : Source T) (size : Nat) : Machine source size where
  state := ({ captured := [], baseSubscription := some 0 } : ChainingStream (List T))
  parts := [({ state := source.initial } : GeneratingStream source.State)]
  made := 1
  log := [.out .onSubscribe, .said 0 () .onSubscribe, .ask 0 .subscribe, .call .subscribe]

theorem opened_reach (source : Source T) (size : Nat) :
    Reach source size (opened source size) := by
  have hsubscribe : Reach source size (Linked.call subscriptionCheck
      { state := ({ captured := [] } : ChainingStream (List T))
        parts := [({ state := source.initial } : GeneratingStream source.State)] } .subscribe) :=
    Linked.Reach.call _ Call.subscribe .init rfl rfl rfl
  exact Linked.Reach.follows 7 _ hsubscribe

/-- The first request. -/
theorem Reach.request (source : Source T) (size n : Nat) (hpos : 1 ≤ n)
    (hfits : size * n < 2 ^ 64) :
    Reach source size (Linked.call subscriptionCheck (opened source size) (.request n)) := by
  refine Linked.Reach.call _ _ (opened_reach source size) rfl rfl ⟨rfl, hpos, ?_⟩
  change size * (0 + n) < 2 ^ 64
  rwa [Nat.zero_add]

theorem outOfRange_ne_ok : StatusCode.outOfRange ≠ .ok := by
  decide

/-- Three values, and vectors of two. The subscriber requests two of them. -/
abbrev threeValues : Source Nat :=
  Source.ofList [1, 2, 3] { code := .outOfRange } outOfRange_ne_ok

abbrev requestTwo : Machine threeValues 2 :=
  Linked.call subscriptionCheck (opened threeValues 2) (.request 2)

theorem buffer_chunks_partly :
    ∃ n, received (Linked.follows subscriptionCheck n requestTwo).log =
      [.value [1, 2], .value [3], .status { code := .outOfRange } outOfRange_ne_ok] := by
  rcases (buffer_chunks threeValues 2 (by decide) requestTwo
    (Reach.request _ _ _ (by decide) (by decide)) (Or.inl (by decide))).received
    with ⟨n, -, hreceived⟩
  exact ⟨n, hreceived.trans (by decide)⟩

/-- A source of as many values as can be counted. -/
abbrev units : Source Unit :=
  Source.ofList (List.replicate kMax ()) { code := .outOfRange } outOfRange_ne_ok

theorem length_units : units.values.length = kMax :=
  List.length_replicate

/-- Infinitely many vectors are requested. -/
theorem Reach.infinite (source : Source T) (m : Nat) (hm : m = kMax) :
    ∃ st : Machine source 1, Reach source 1 st ∧ Linked.AtRest st ∧ demand st.log = kMax ∧
      received st.log = events source 1 := by
  have hkMax : kMax = 2 ^ 64 - 1 := rfl
  have hmod : 1 * m % 2 ^ 64 = kMax := by omega
  have hcall := Reach.request source 1 m (by omega) (by omega)
  have hlog : (Linked.call subscriptionCheck (opened source 1) (.request m)).log =
      .ask 0 (.request (1 * m % 2 ^ 64)) :: .call (.request m) :: (opened source 1).log := rfl
  have howing : (owing 0 (Linked.call subscriptionCheck (opened source 1)
      (.request m)).log).balance = kMax := by
    have hnone : (owing 0 (opened source 1).log).balance = 0 := rfl
    rw [hlog, owing_request, RequestBalance.balance_add, hnone, hmod]
    omega
  rcases hcall.rests (by decide) with ⟨n, hrest, hstanding⟩
  have huncalled := Linked.follows_uncalled subscriptionCheck n
    (Linked.call subscriptionCheck (opened source 1) (.request m))
  have hdemand : demand (Linked.follows subscriptionCheck n
      (Linked.call subscriptionCheck (opened source 1) (.request m))).log = kMax := by
    rw [demand_uncalled huncalled, hlog, demand_cons, demand_cons]
    exact (Nat.zero_add m).trans hm
  rcases huncalled with ⟨new, hnew, -⟩
  refine ⟨_, Linked.Reach.follows n _ hcall, hrest, hdemand, ?_⟩
  rw [hstanding.received_eq (by decide) hrest.2, if_pos]
  refine ⟨hnew ▸ owing_infinite howing new, ?_⟩
  rw [hdemand]
  exact Nat.le_of_eq (Nat.one_mul kMax).symm

/-- A request for `kMax` vectors of one value is infinite, and the status is
    delivered though not more values were asked for than there are. -/
theorem infinite_vectors :
    ∃ st : Machine units 1, Reach units 1 st ∧ Linked.AtRest st ∧ 1 * demand st.log < 2 ^ 64 ∧
      received st.log ≠ due units 1 (demand st.log) := by
  rcases Reach.infinite units kMax rfl with ⟨st, hreach, hrest, hdemand, hreceived⟩
  refine ⟨st, hreach, hrest, by rw [hdemand]; decide, fun heq => ?_⟩
  have hlength : (vectors units 1).length = kMax := by
    have hdone : units.ending.code = .outOfRange := rfl
    unfold vectors
    rw [if_pos hdone, List.length_map, List.length_range, length_units, Nat.add_sub_cancel,
      Nat.div_one]
  rw [hreceived, hdemand, due, length_units, if_neg (by omega), List.append_nil] at heq
  have hcount := congrArg List.length heq
  rw [length_events, List.length_map, List.length_take, hlength] at hcount
  omega

end Examples

end Buffering

end RxCppUniq
