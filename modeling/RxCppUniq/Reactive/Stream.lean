import RxCppUniq.Base.Status
import RxCppUniq.Reactive.RequestBalance
import RxCppUniq.Theory.Open

/-!
# Streams and their Calls

The vocabulary the operators share. A stream is called from below through
its subscription, by `Request` and `Cancel`, and calls its subscriber, by
`OnSubscribe` and `OnNext`; it owns the subscriber, so its end is a call of
the subscriber's destructor. An operator is a component whose parts are the
streams it subscribes to: it is their subscriber, and it is a stream itself
towards its environment.

What may be read of a stream is `has_ended()`. The class `Subscription`
reads it before it passes a call on to the stream, and fails where the
stream has ended; `subscriptionCheck` is that check.

The second half of the file reads a log of calls and states, in terms of the
log, what the partners of an operator are held to. Both sides of strict flow
control are one predicate: `Strict` is what an operator may assume of the
streams it subscribes to and what its own subscriber may assume of it.

## Main definitions

* `Call`, `Signal`: The calls on a stream and the calls of a stream.
* `subscriptionCheck`: The check of `Subscription::Request` and `Cancel`.
* `Operator`: A component that is a stream over streams.
* `demand`, `tokens`: Tokens requested so far by the subscriber and of the
  stream with a given number.
* `received`, `arrived`: The events that came out and those that came in.
* `outstanding`, `owing`: The demand that is left, of the subscriber and of
  the stream with a given number.
* `Strict`: No event that was not requested, and none after the last.
* `Protocol.stream`, `Protocol.subscriber`: What partners may do.
* `unlimited`: The demand was infinite at some time.
* `PartnerRules`: Rules for an operator whose subscriber may cancel.
-/

namespace RxCppUniq

open Theory

/-- The calls on a publisher and, once it is subscribed, on its stream. -/
inductive Call where
  | subscribe
  | request (count : Nat)
  | cancel
deriving DecidableEq, Repr

/-- The calls of a stream on its subscriber, the destructor included. -/
inductive Signal (T : Type) where
  | onSubscribe
  | onNext (event : StatusOr T)
  | destroy
deriving DecidableEq, Repr

/-- The check in `Subscription::Request` and `Subscription::Cancel`. -/
def subscriptionCheck (hasEnded : Bool) : Call → Option String
  | .subscribe => none
  | .request _ => if hasEnded then some "access to subscription after stream ended" else none
  | .cancel => if hasEnded then some "access to subscription after stream ended" else none

@[simp] theorem subscriptionCheck_false (c : Call) : subscriptionCheck false c = none := by
  cases c <;> rfl

/-- The check fails with one message. -/
theorem subscriptionCheck_some (hasEnded : Bool) (c : Call) (msg : String)
    (h : subscriptionCheck hasEnded c = some msg) :
    msg = "access to subscription after stream ended" := by
  cases hasEnded with
  | false => exact absurd (h.symm.trans (subscriptionCheck_false c)) (Option.some_ne_none msg)
  | true =>
      cases c with
      | subscribe => cases h
      | request n => exact (Option.some.inj h).symm
      | cancel => exact (Option.some.inj h).symm

/-- The message of the fault that stands for undefined behaviour: code of an
    object runs, or its fields are read, after the object was destroyed. The
    source has no such message. -/
def useAfterFree : String := "use after free"

/-- An operator: towards its environment a stream of `R`, and the subscriber
    of streams of kinds `ι`, where one of kind `i` publishes `T i`. -/
abbrev Operator (R ι : Type) (T : ι → Type) :=
  Component Call (Signal R) Bool ι (fun i => Signal (T i))

section Log

variable {R ι : Type} {T : ι → Type}

/-- One call in the log of an operator's run. -/
abbrev Entry (R ι : Type) (T : ι → Type) :=
  Note Call (Signal R) ι (fun i => Signal (T i))

/-- The log of an operator's run. -/
abbrev Log (R ι : Type) (T : ι → Type) :=
  List (Entry R ι T)

/-- The tokens a call asks for. -/
@[simp] def Call.count : Call → Nat
  | .subscribe => 0
  | .request n => n
  | .cancel => 0

/-- The event of a call on a subscriber. -/
@[simp] def Signal.event? : Signal R → Option (StatusOr R)
  | .onSubscribe => none
  | .onNext e => some e
  | .destroy => none

/-- The call of the destructor. -/
@[simp] def Signal.isDestroy : Signal R → Bool
  | .onSubscribe => false
  | .onNext _ => false
  | .destroy => true

namespace Entry

/-- The tokens the subscriber requests in a call. -/
@[simp] def demand : Entry R ι T → Nat
  | .call c => c.count
  | .out _ => 0
  | .ask _ _ => 0
  | .said _ _ _ => 0

/-- The tokens requested in a call of the stream with number `p`. -/
@[simp] def tokens (p : Nat) : Entry R ι T → Nat
  | .call _ => 0
  | .out _ => 0
  | .ask q c => if q = p then c.count else 0
  | .said _ _ _ => 0

/-- The event the subscriber receives in a call. -/
@[simp] def received : Entry R ι T → Option (StatusOr R)
  | .call _ => none
  | .out s => s.event?
  | .ask _ _ => none
  | .said _ _ _ => none

/-- The event that arrives from the stream with number `p` in a call, by its
    code: what the event carries has a type that depends on the stream. -/
@[simp] def arrived (p : Nat) : Entry R ι T → Option StatusCode
  | .call _ => none
  | .out _ => none
  | .ask _ _ => none
  | .said q _ s => if q = p then s.event?.map StatusOr.code else none

@[simp] def subscribes : Entry R ι T → Bool
  | .call _ => false
  | .out s => match s with
    | .onSubscribe => true
    | .onNext _ => false
    | .destroy => false
  | .ask _ _ => false
  | .said _ _ _ => false

@[simp] def confirms (p : Nat) : Entry R ι T → Bool
  | .call _ => false
  | .out _ => false
  | .ask _ _ => false
  | .said q _ s => match s with
    | .onSubscribe => q == p
    | .onNext _ => false
    | .destroy => false

@[simp] def releases (p : Nat) : Entry R ι T → Bool
  | .call _ => false
  | .out _ => false
  | .ask _ _ => false
  | .said q _ s => match s with
    | .onSubscribe => false
    | .onNext _ => false
    | .destroy => q == p

/-- A `Cancel` of the stream with number `p`. -/
@[simp] def cancels (p : Nat) : Entry R ι T → Nat
  | .call _ => 0
  | .out _ => 0
  | .ask q c => match c with
    | .subscribe => 0
    | .request _ => 0
    | .cancel => if q = p then 1 else 0
  | .said _ _ _ => 0

@[simp] def isCancel : Entry R ι T → Bool
  | .call c => match c with
    | .subscribe => false
    | .request _ => false
    | .cancel => true
  | .out _ => false
  | .ask _ _ => false
  | .said _ _ _ => false

end Entry

/-- The tokens requested by the subscriber so far. -/
def demand (log : Log R ι T) : Nat :=
  tally Entry.demand log

/-- The tokens requested so far of the stream with number `p`. -/
def tokens (p : Nat) (log : Log R ι T) : Nat :=
  tally (Entry.tokens p) log

/-- The events the subscriber has received, in order. -/
def received (log : Log R ι T) : List (StatusOr R) :=
  (log.filterMap Entry.received).reverse

/-- The codes of the events that have arrived from the stream with number
    `p`, in order. -/
def arrived (p : Nat) (log : Log R ι T) : List StatusCode :=
  (log.filterMap (Entry.arrived p)).reverse

/-- The subscriber has been given the subscription. -/
def subscribed (log : Log R ι T) : Bool :=
  log.any Entry.subscribes

/-- The stream with number `p` has handed out its subscription. -/
def confirmed (p : Nat) (log : Log R ι T) : Bool :=
  log.any (Entry.confirms p)

/-- The stream with number `p` has destroyed its subscriber. -/
def released (p : Nat) (log : Log R ι T) : Bool :=
  log.any (Entry.releases p)

/-- How often the stream with number `p` has been cancelled. -/
def cancels (p : Nat) (log : Log R ι T) : Nat :=
  tally (Entry.cancels p) log

/-- The subscriber has cancelled. -/
def cancelCalled (log : Log R ι T) : Bool :=
  log.any Entry.isCancel

/-- The values the subscriber receives in a call. -/
@[simp] def Entry.served : Entry R ι T → Nat
  | .call _ => 0
  | .out s => match s with
    | .onSubscribe => 0
    | .onNext e => if e.isEnd then 0 else 1
    | .destroy => 0
  | .ask _ _ => 0
  | .said _ _ _ => 0

/-- The values that arrive from the stream with number `p` in a call. -/
@[simp] def Entry.supplied (p : Nat) : Entry R ι T → Nat
  | .call _ => 0
  | .out _ => 0
  | .ask _ _ => 0
  | .said q _ s => match s with
    | .onSubscribe => 0
    | .onNext e => if q = p ∧ e.isEnd = false then 1 else 0
    | .destroy => 0

/-- The demand of the subscriber that is left, as a balance: what it has
    requested and has not received. -/
def outstanding : Log R ι T → RequestBalance
  | [] => .zero
  | n :: log => (outstanding log).counted n.demand n.served

/-- The demand that is left of the stream with number `p`, as a balance: what
    was requested of it and has not arrived. -/
def owing (p : Nat) : Log R ι T → RequestBalance
  | [] => .zero
  | n :: log => (owing p log).counted (n.tokens p) (n.supplied p)

@[simp] theorem outstanding_nil : outstanding ([] : Log R ι T) = .zero := rfl

@[simp] theorem outstanding_cons (n : Entry R ι T) (log : Log R ι T) :
    outstanding (n :: log) = (outstanding log).counted n.demand n.served := rfl

@[simp] theorem owing_nil (p : Nat) : owing p ([] : Log R ι T) = .zero := rfl

@[simp] theorem owing_cons (p : Nat) (n : Entry R ι T) (log : Log R ι T) :
    owing p (n :: log) = (owing p log).counted (n.tokens p) (n.supplied p) := rfl

@[simp] theorem demand_nil : demand ([] : Log R ι T) = 0 := rfl

@[simp] theorem demand_cons (n : Entry R ι T) (log : Log R ι T) :
    demand (n :: log) = demand log + n.demand :=
  tally_cons _ _ _

@[simp] theorem tokens_nil (p : Nat) : tokens p ([] : Log R ι T) = 0 := rfl

@[simp] theorem tokens_cons (p : Nat) (n : Entry R ι T) (log : Log R ι T) :
    tokens p (n :: log) = tokens p log + n.tokens p :=
  tally_cons _ _ _

@[simp] theorem received_nil : received ([] : Log R ι T) = [] := rfl

@[simp] theorem received_cons (n : Entry R ι T) (log : Log R ι T) :
    received (n :: log) = received log ++ n.received.toList := by
  cases h : n.received <;>
    simp only [received, List.filterMap_cons, h, List.reverse_cons, Option.toList_none,
      Option.toList_some, List.append_nil]

@[simp] theorem arrived_nil (p : Nat) : arrived p ([] : Log R ι T) = [] := rfl

@[simp] theorem arrived_cons (p : Nat) (n : Entry R ι T) (log : Log R ι T) :
    arrived p (n :: log) = arrived p log ++ (n.arrived p).toList := by
  cases h : n.arrived p <;>
    simp only [arrived, List.filterMap_cons, h, List.reverse_cons, Option.toList_none,
      Option.toList_some, List.append_nil]

@[simp] theorem subscribed_nil : subscribed ([] : Log R ι T) = false := rfl

@[simp] theorem subscribed_cons (n : Entry R ι T) (log : Log R ι T) :
    subscribed (n :: log) = (n.subscribes || subscribed log) :=
  List.any_cons

@[simp] theorem confirmed_nil (p : Nat) : confirmed p ([] : Log R ι T) = false := rfl

@[simp] theorem confirmed_cons (p : Nat) (n : Entry R ι T) (log : Log R ι T) :
    confirmed p (n :: log) = (n.confirms p || confirmed p log) :=
  List.any_cons

@[simp] theorem released_nil (p : Nat) : released p ([] : Log R ι T) = false := rfl

@[simp] theorem released_cons (p : Nat) (n : Entry R ι T) (log : Log R ι T) :
    released p (n :: log) = (n.releases p || released p log) :=
  List.any_cons

@[simp] theorem cancels_nil (p : Nat) : cancels p ([] : Log R ι T) = 0 := rfl

@[simp] theorem cancels_cons (p : Nat) (n : Entry R ι T) (log : Log R ι T) :
    cancels p (n :: log) = cancels p log + n.cancels p := rfl

@[simp] theorem cancelCalled_nil : cancelCalled ([] : Log R ι T) = false := rfl

@[simp] theorem cancelCalled_cons (n : Entry R ι T) (log : Log R ι T) :
    cancelCalled (n :: log) = (n.isCancel || cancelCalled log) :=
  List.any_cons

/-- A cancellation that is in the log was called. -/
theorem cancelCalled_of_append (new old log : Log R ι T)
    (h : log = new ++ .call .cancel :: old) : cancelCalled log = true := by
  rw [h, cancelCalled, List.any_append, List.any_cons, Entry.isCancel, Bool.true_or,
    Bool.or_true]

/-- Strict flow control, for a stream of which `requested` tokens were
    requested and which sent events with these codes: it sent no more events
    than were requested, and none after the event that ends it. -/
def Strict (requested : Nat) (codes : List StatusCode) : Prop :=
  codes.length ≤ requested ∧ ∀ c ∈ codes.dropLast, c = .ok

instance (requested : Nat) (codes : List StatusCode) : Decidable (Strict requested codes) :=
  inferInstanceAs (Decidable (_ ∧ _))

/-- One more event is allowed exactly when a token is left for it and the
    stream has not ended. -/
theorem strict_append (requested : Nat) (codes : List StatusCode) (c : StatusCode) :
    Strict requested (codes ++ [c]) ↔ codes.length < requested ∧ ∀ x ∈ codes, x = .ok := by
  simp only [Strict, List.length_append, List.length_cons, List.length_nil, Nat.zero_add,
    List.dropLast_concat, Nat.succ_le_iff]

/-- More requests do no harm. -/
theorem Strict.mono {requested requested' : Nat} {codes : List StatusCode}
    (h : Strict requested codes) (hle : requested ≤ requested') : Strict requested' codes :=
  ⟨Nat.le_trans h.1 hle, h.2⟩

/-- The stream has sent the event that ends it. -/
def ended (codes : List StatusCode) : Bool :=
  codes.any (· != .ok)

@[simp] theorem ended_nil : ended [] = false := rfl

@[simp] theorem ended_append (codes codes' : List StatusCode) :
    ended (codes ++ codes') = (ended codes || ended codes') :=
  List.any_append

@[simp] theorem ended_singleton (c : StatusCode) : ended [c] = (c != .ok) := by
  simp only [ended, List.any_cons, List.any_nil, Bool.or_false]

/-- A stream has not ended as long as all it has sent are values. -/
theorem ended_eq_false (codes : List StatusCode) :
    ended codes = false ↔ ∀ c ∈ codes, c = .ok := by
  simp only [ended, List.any_eq_false, bne_iff_ne, ne_eq, Decidable.not_not]

namespace Protocol

/-- A stream with strict flow control hands out its subscription once, before
    its first event, and is silent once it has destroyed its subscriber. -/
def stream {U : Type} (p : Nat) (log : Log R ι T) : Signal U → Prop
  | .onSubscribe => confirmed p log = false ∧ released p log = false
  | .onNext e => confirmed p log = true ∧ released p log = false ∧
      Strict (tokens p log) (arrived p log ++ [e.code])
  | .destroy => released p log = false

/-- A subscriber calls a stream only through the subscription it was handed,
    and asks for at least one token. -/
def subscriber (log : Log R ι T) : Call → Prop
  | .subscribe => log.isEmpty = true
  | .request n => subscribed log = true ∧ 1 ≤ n ∧ n ≤ kMax
  | .cancel => subscribed log = true

instance {U : Type} (p : Nat) (log : Log R ι T) (s : Signal U) :
    Decidable (stream p log s) :=
  match s with
  | .onSubscribe => inferInstanceAs (Decidable (_ ∧ _))
  | .onNext _ => inferInstanceAs (Decidable (_ ∧ _ ∧ _))
  | .destroy => inferInstanceAs (Decidable (_ = _))

instance (log : Log R ι T) (c : Call) :
    Decidable (subscriber log c) :=
  match c with
  | .subscribe => inferInstanceAs (Decidable (_ = _))
  | .request _ => inferInstanceAs (Decidable (_ ∧ _ ∧ _))
  | .cancel => inferInstanceAs (Decidable (_ = _))

end Protocol

/-- The values among some events. -/
def values (events : List (StatusOr R)) : Nat :=
  events.countP (!·.isEnd)

/-- The demand was infinite at some time: a request took what was asked for
    and not delivered to `kMax`. -/
def unlimited : Log R ι T → Bool
  | [] => false
  | n :: log => unlimited log || kMax ≤ demand log - values (received log) + n.demand

@[simp] theorem unlimited_nil : unlimited ([] : Log R ι T) = false := rfl

theorem unlimited_cons (n : Entry R ι T) (log : Log R ι T) :
    unlimited (n :: log) =
      (unlimited log || decide (kMax ≤ demand log - values (received log) + n.demand)) := rfl

theorem unlimited_of_cons {n : Entry R ι T} {log : Log R ι T}
    (h : unlimited (n :: log) = false) : unlimited log = false := by
  rw [unlimited_cons, Bool.or_eq_false_iff] at h
  exact h.1

/-- A demand that is not infinite never was. -/
theorem unlimited_of_suffix {old log : Log R ι T} (h : old <:+ log)
    (hno : unlimited log = false) : unlimited old = false := by
  rcases h with ⟨new, rfl⟩
  induction new with
  | nil => exact hno
  | cons n new ih => exact ih (unlimited_of_cons hno)

/-- A demand that was infinite was for `kMax` tokens at least. -/
theorem kMax_le_demand (log : Log R ι T) (h : unlimited log = true) : kMax ≤ demand log := by
  induction log with
  | nil => cases h
  | cons n log ih =>
      rw [unlimited_cons, Bool.or_eq_true, decide_eq_true_eq] at h
      rw [demand_cons]
      rcases h with hold | hnew
      · exact Nat.le_add_right_of_le (ih hold)
      · omega

/-- The rules for the partners of an operator whose subscriber may cancel. The
    streams have strict flow control, and their subscription has ended once
    they were cancelled or have made their last event, which may still be on
    its way. -/
def PartnerRules {M : Operator R ι T} (st : Open M) :
    Move Call Bool ι (fun i => Signal (T i)) → Prop
  | .call c => Protocol.subscriber st.log c
  | .said p _ s => Protocol.stream p st.log s
  | .reply => True
  | .view p v => v = true ∧ (1 ≤ cancels p st.log ∨ ended (arrived p st.log) = true ∨
      (arrived p st.log).length < tokens p st.log)
  | .run => True

instance {M : Operator R ι T} (st : Open M) (m : Move Call Bool ι (fun i => Signal (T i))) :
    Decidable (PartnerRules st m) :=
  match m with
  | .call _ => inferInstanceAs (Decidable (Protocol.subscriber _ _))
  | .said _ _ _ => inferInstanceAs (Decidable (Protocol.stream _ _ _))
  | .reply => inferInstanceAs (Decidable True)
  | .view _ _ => inferInstanceAs (Decidable (_ ∧ _))
  | .run => inferInstanceAs (Decidable True)

section Heard

variable {R ι T : Type}

/-- The event that arrives in a call from the stream with number `p`, where
    all streams publish values of one type. -/
@[simp] def Entry.heard (p : Nat) : Entry R ι (fun _ => T) → Option (StatusOr T)
  | .call _ => none
  | .out _ => none
  | .ask _ _ => none
  | .said q _ s => if q = p then s.event? else none

/-- The events that have arrived from the stream with number `p`, in
    order. -/
def heard (p : Nat) (log : Log R ι (fun _ => T)) : List (StatusOr T) :=
  (log.filterMap (Entry.heard p)).reverse

@[simp] theorem heard_nil (p : Nat) : heard p ([] : Log R ι (fun _ => T)) = [] := rfl

@[simp] theorem heard_cons (p : Nat) (n : Entry R ι (fun _ => T))
    (log : Log R ι (fun _ => T)) :
    heard p (n :: log) = heard p log ++ (n.heard p).toList := by
  cases h : n.heard p <;>
    simp only [heard, List.filterMap_cons, h, List.reverse_cons, Option.toList_none,
      Option.toList_some, List.append_nil]

/-- What arrives, by its code, is what is heard. -/
theorem arrived_eq_heard (p : Nat) (log : Log R ι (fun _ => T)) :
    arrived p log = (heard p log).map StatusOr.code := by
  induction log with
  | nil => rfl
  | cons n log ih =>
      rw [arrived_cons, heard_cons, List.map_append, ih]
      congr 1
      cases n with
      | said q i s =>
          by_cases hq : q = p
          · cases s <;> simp only [Entry.arrived, Entry.heard, hq, if_true, Signal.event?,
              Option.map_none, Option.map_some, Option.toList_none, Option.toList_some,
              List.map_nil, List.map_cons]
          · simp only [Entry.arrived, Entry.heard, hq, if_false, Option.toList_none,
              List.map_nil]
      | _ => rfl

end Heard

end Log

@[simp] theorem values_nil {T : Type} : values ([] : List (StatusOr T)) = 0 := rfl

@[simp] theorem values_append {T : Type} (l l' : List (StatusOr T)) :
    values (l ++ l') = values l + values l' :=
  List.countP_append

@[simp] theorem values_singleton {T : Type} (e : StatusOr T) :
    values [e] = if e.isEnd then 0 else 1 := by
  cases h : e.isEnd <;> simp only [values, List.countP_cons, List.countP_nil, h, Bool.not_true,
    Bool.not_false, if_true, if_false, Bool.false_eq_true]

theorem values_le_length {T : Type} (l : List (StatusOr T)) : values l ≤ l.length :=
  List.countP_le_length

/-- As long as there was no end every event is a value. -/
theorem values_eq_length {T : Type} (l : List (StatusOr T)) (h : ∀ e ∈ l, e.isEnd = false) :
    values l = l.length := by
  rw [values, List.countP_eq_length]
  intro e he
  rw [h e he, Bool.not_false]

section StrictFlow

variable {R ι : Type} {T : ι → Type}

/-- The operator itself is strict towards its subscriber. -/
def StrictFlow (log : Log R ι T) : Prop :=
  Strict (demand log) ((received log).map StatusOr.code)

/-- A call that delivers nothing keeps the flow strict. -/
theorem StrictFlow.silent {log : Log R ι T} (h : StrictFlow log) (n : Entry R ι T)
    (hn : n.received = none) : StrictFlow (n :: log) := by
  unfold StrictFlow
  rw [received_cons, hn, Option.toList_none, List.append_nil, demand_cons]
  exact h.mono (Nat.le_add_right _ _)

/-- An event may be delivered when demand is left and none before was an
    end. -/
theorem strictFlow_onNext (log : Log R ι T) (e : StatusOr R)
    (hlt : (received log).length < demand log) (hrun : ∀ x ∈ received log, x.isEnd = false) :
    StrictFlow (.out (.onNext e) :: log) := by
  unfold StrictFlow
  rw [received_cons, demand_cons]
  simp only [Entry.received, Signal.event?, Option.toList_some, List.map_append, List.map_cons,
    List.map_nil, Entry.demand, Nat.add_zero]
  rw [strict_append, List.length_map]
  refine ⟨hlt, fun c hc => ?_⟩
  rcases List.mem_map.mp hc with ⟨x, hx, rfl⟩
  have hval := hrun x hx
  simpa only [StatusOr.isEnd, bne_eq_false_iff_eq] using hval

end StrictFlow

end RxCppUniq
