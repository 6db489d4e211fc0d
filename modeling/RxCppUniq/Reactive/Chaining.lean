import RxCppUniq.Reactive.Stream

/-!
# Chaining Streams

`ChainingStream` passes what its base stream sends through a function, and
what it is asked for through another: `Map`, `StaticCast` and `Buffer` are
three such pairs. The function is handed the subscriber and may call it any
number of times, so it is cut into pieces at these calls like any other
code. What it captures is destroyed together with the stream.

## Main definitions

* `ChainingFunc`: The two functions.
* `ChainingStream.component`: The methods.
* `ChainingFunc.map`, `ChainingFunc.staticCast`, `ChainingFunc.buffer`: The
  operators.
-/

namespace RxCppUniq

open Theory

/-- The functions a `ChainingStream` is made with. `Captured` is what `func`
    holds by reference, and `Rest` are the places in it where it has called
    the subscriber and is not finished yet. -/
structure ChainingFunc (T R : Type) where
  Captured : Type
  Rest : Type
  captured : Captured
  requestMapping : Nat → Nat
  /-- `func` up to its first call of the subscriber, if it makes one, and
      what is left to do then. -/
  func : Captured → StatusOr T → Captured × Option (StatusOr R × Option Rest)
  resume : Captured → Rest → Captured × Option (StatusOr R × Option Rest)

structure ChainingStream (Captured : Type) where
  /-- `subscription_state_` was cleared, by the destructor. -/
  hasEnded : Bool := false
  baseSubscription : Option Nat := none
  captured : Captured

namespace ChainingStream

/-- Where a method waits for a call to return. -/
inductive Point (Rest : Type) where
  /-- Nothing is left to do. -/
  | done
  /-- `func` has called the subscriber and is not finished yet. -/
  | rest (r : Rest)

variable {T R : Type}

section Methods

variable (f : ChainingFunc T R)

abbrev Result := ChainingStream f.Captured × Act Call (Signal R) Unit (Point f.Rest)

def request (s : ChainingStream f.Captured) (tokens : Nat) : Result f :=
  match s.baseSubscription with
  | none => (s, .fail "OnSubscribe has never been called")
  | some p => (s, .ask p (.request (f.requestMapping tokens)) .done)

def cancel (views : Nat → Bool) (s : ChainingStream f.Captured) : Result f :=
  match s.baseSubscription with
  | none => (s, .fail "OnSubscribe has never been called")
  | some p => if views p then (s, .ret) else (s, .ask p .cancel .done)

def onSubscribe (s : ChainingStream f.Captured) (p : Nat) : Result f :=
  ({ s with baseSubscription := some p }, .out .onSubscribe .done)

/-- Go on after a piece of `func`. -/
def send (s : ChainingStream f.Captured) :
    f.Captured × Option (StatusOr R × Option f.Rest) → Result f
  | (c, none) => ({ s with captured := c }, .ret)
  | (c, some (event, none)) => ({ s with captured := c }, .out (.onNext event) .done)
  | (c, some (event, some r)) => ({ s with captured := c }, .out (.onNext event) (.rest r))

def onNext (s : ChainingStream f.Captured) (event : StatusOr T) : Result f :=
  send f s (f.func s.captured event)

/-- The rest of `func`, which is destroyed when the stream is. -/
def resume (s : ChainingStream f.Captured) (r : f.Rest) : Result f :=
  if s.hasEnded then (s, .fail useAfterFree) else send f s (f.resume s.captured r)

/-- The methods. The base stream owns this one and destroys it. -/
abbrev component : Operator R Unit (fun _ => T) where
  State := ChainingStream f.Captured
  Point := Point f.Rest
  start := { captured := f.captured }
  call views s
    | .subscribe => (s, .make () .subscribe .done)
    | .request tokens => request f s tokens
    | .cancel => cancel f views s
  said _ s p _
    | .onSubscribe => onSubscribe f s p
    | .onNext event => onNext f s event
    | .destroy => ({ s with hasEnded := true }, .out .destroy .done)
  resume _ s
    | .done => (s, .ret)
    | .rest r => resume f s r
  look s := s.hasEnded

end Methods

end ChainingStream

namespace ChainingFunc

variable {T R : Type}

/-- `Publisher::Map`. -/
def map (func : T → StatusOr R) : ChainingFunc T R where
  Captured := Unit
  Rest := Empty
  captured := ()
  requestMapping tokens := tokens
  func _ event := match event with
    | .value v => ((), some (func v, none))
    | .status s h => ((), some (.status s h, none))
  resume _ r := nomatch r

/-- `Publisher::StaticCast`. -/
def staticCast (cast : T → R) : ChainingFunc T R where
  Captured := Unit
  Rest := Empty
  captured := ()
  requestMapping tokens := tokens
  func _ event := match event with
    | .value v => ((), some (.value (cast v), none))
    | .status s h => ((), some (.status s h, none))
  resume _ r := nomatch r

/-- The places in `func` of `Buffer` after a call of the subscriber with
    something left to do. -/
inductive BufferRest where
  /-- After a full buffer: `buffer->clear()`. -/
  | clear
  /-- After the remaining elements: the event that ends the stream. -/
  | finish (s : Status) (notOk : s.code ≠ .ok)

/-- `Publisher::Buffer`. The buffer is moved out when it is sent, which
    leaves it empty, and the product of `requestMapping` is one of two
    `size_t`. -/
def buffer (size : Nat) : ChainingFunc T (List T) where
  Captured := List T
  Rest := BufferRest
  captured := []
  requestMapping tokens := size * tokens % 2 ^ 64
  func buffer event := match event with
    | .value v =>
        let buffer := buffer ++ [v]
        if buffer.length = size then ([], some (.value buffer, some .clear)) else (buffer, none)
    | .status s h =>
        if s.code = .outOfRange ∧ 0 < buffer.length then
          ([], some (.value buffer, some (.finish s h)))
        else (buffer, some (.status s h, none))
  resume buffer r := match r with
    | .clear => ([], none)
    | .finish s h => (buffer, some (.status s h, none))

end ChainingFunc

end RxCppUniq
