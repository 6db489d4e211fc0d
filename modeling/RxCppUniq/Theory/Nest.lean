import RxCppUniq.Theory.Component

/-!
# Components with their Parts

A component together with what is executed as its parts. There is one machine,
a component without parts of its own, for each kind of part; a part is created
when the component asks for it, in the state in which its machine starts. Where
a part waits for a call to return it keeps the point at which it goes on.

The whole is a machine itself. It runs in small steps, each of which is a piece
of code of the component or of a part, and can be the part of another component.

## Main definitions

* `Machine`: A component without parts.
* `Nest.Part`, `Nest.State`: A part, and the whole.
* `Nest.perform`, `Nest.answer`: What is done when a piece of code stops.
* `nest`: The component and its parts as a machine.
-/

namespace RxCppUniq

namespace Theory

variable {C O V ι : Type} {P : ι → Type} {Q : Empty → Type}

/-- A component without parts. -/
abbrev Machine (C O V : Type) (Q : Empty → Type) := Component C O V Empty Q

/-- What a machine reads of the parts it does not have. -/
abbrev noViews [Inhabited V] : Nat → V := fun _ => default

namespace Nest

/-- A part: its kind, its state, and the points at which it goes on when its
    calls of the component return, the innermost first. -/
structure Part (N : (i : ι) → Machine C (P i) V Q) where
  kind : ι
  state : (N kind).State
  waiting : List (N kind).Point

/-- Who waits on the stack. -/
inductive Frame (K : Type) where
  | env
  | own (k : K)
  | part (p : Nat)

/-- Where the whole goes on. -/
inductive Point (C ι K : Type) (P : ι → Type) where
  /-- The component, at a point of its code. -/
  | run (k : K)
  /-- A part, which the component calls. -/
  | ask (p : Nat) (c : C)
  /-- The component, which a part calls. -/
  | said (p : Nat) (i : ι) (o : P i)
  /-- A part, at its innermost point. -/
  | part (p : Nat)
  /-- Whoever has called the environment. -/
  | reply

/-- A component with its parts. -/
structure State (M : Component C O V ι P) (N : (i : ι) → Machine C (P i) V Q) where
  state : M.State
  parts : List (Part N)
  stack : List (Frame M.Point)
  /-- The calls across the boundary of the component, the newest first. -/
  log : List (Note C O ι P)

variable {M : Component C O V ι P} {N : (i : ι) → Machine C (P i) V Q}

/-- The action of a piece of code, for the whole. -/
abbrev Result (M : Component C O V ι P) (N : (i : ι) → Machine C (P i) V Q) :=
  State M N × Act C O Empty (Point C ι M.Point P)

def noSuchPart : String := "no such part"

/-- A part is replaced. -/
def State.put (st : State M N) (p : Nat) (u : Part N) : State M N :=
  { st with parts := st.parts.set p u }

/-- What can be read of the parts. -/
def State.views [Inhabited V] (st : State M N) (p : Nat) : V :=
  match st.parts[p]? with
  | none => default
  | some u => (N u.kind).look u.state

/-- A call returns to whoever has made it. -/
def back (st : State M N) : Result M N :=
  match st.stack with
  | [] => (st, .ret)
  | .env :: rest => ({ st with stack := rest }, .ret)
  | .own k :: rest => ({ st with stack := rest }, .goto (.run k))
  | .part p :: rest => ({ st with stack := rest }, .goto (.part p))

/-- What is done when a piece of code of the component stops. Calls on parts go
    through `gate`. -/
def perform [Inhabited V] (gate : V → C → Option String) (st : State M N)
    (r : M.State × Act C O ι M.Point) : Result M N :=
  match r.2 with
  | .ret => back { st with state := r.1 }
  | .goto k => ({ st with state := r.1 }, .goto (.run k))
  | .out o k =>
      ({ st with state := r.1, stack := .own k :: st.stack, log := .out o :: st.log },
        .out o .reply)
  | .ask p c k => match gate (st.views p) c with
    | some msg => ({ st with state := r.1 }, .fail msg)
    | none =>
        ({ st with state := r.1, stack := .own k :: st.stack, log := .ask p c :: st.log },
          .goto (.ask p c))
  | .make i c k =>
      ({ st with
          state := r.1
          parts := st.parts ++ [{ kind := i, state := (N i).start, waiting := [] }]
          stack := .own k :: st.stack
          log := .ask st.parts.length c :: st.log }, .goto (.ask st.parts.length c))
  | .fail msg => ({ st with state := r.1 }, .fail msg)

/-- What is done when a piece of code of the part `p` stops, which is of kind `i`
    and waits at some points. -/
def answer (st : State M N) (p : Nat) (i : ι) (waiting : List (N i).Point)
    (r : (N i).State × Act C (P i) Empty (N i).Point) : Result M N :=
  match r.2 with
  | .ret => back (st.put p { kind := i, state := r.1, waiting := waiting })
  | .goto k => (st.put p { kind := i, state := r.1, waiting := k :: waiting }, .goto (.part p))
  | .out o k =>
      ({ st.put p { kind := i, state := r.1, waiting := k :: waiting } with
          stack := .part p :: st.stack, log := .said p i o :: st.log }, .goto (.said p i o))
  | .ask _ _ _ => (st.put p { kind := i, state := r.1, waiting := waiting }, .fail noSuchPart)
  | .make _ _ _ => (st.put p { kind := i, state := r.1, waiting := waiting }, .fail noSuchPart)
  | .fail msg => (st.put p { kind := i, state := r.1, waiting := waiting }, .fail msg)

/-- One step of the whole. -/
def step [Inhabited V] (gate : V → C → Option String) (st : State M N) :
    Point C ι M.Point P → Result M N
  | .run k => perform gate st (M.resume st.views st.state k)
  | .ask p c => match st.parts[p]? with
    | none => (st, .fail noSuchPart)
    | some u => answer st p u.kind u.waiting ((N u.kind).call noViews u.state c)
  | .said p i o => perform gate st (M.said st.views st.state p i o)
  | .part p => match st.parts[p]? with
    | none => (st, .fail noSuchPart)
    | some u => match u.waiting with
      | [] => (st, .fail noSuchPart)
      | k :: waiting => answer st p u.kind waiting ((N u.kind).resume noViews u.state k)
  | .reply => back st

/-- The environment calls the whole. -/
def call [Inhabited V] (gate : V → C → Option String) (st : State M N) (c : C) : Result M N :=
  perform gate { st with stack := .env :: st.stack, log := .call c :: st.log }
    (M.call st.views st.state c)

end Nest

/-- A component with its parts is a machine. -/
abbrev nest [Inhabited V] (gate : V → C → Option String) (M : Component C O V ι P)
    (N : (i : ι) → Machine C (P i) V Q) : Machine C O V Q where
  State := Nest.State M N
  Point := Nest.Point C ι M.Point P
  start := { state := M.start, parts := [], stack := [], log := [] }
  call _ st c := Nest.call gate st c
  said _ _ _ i := nomatch i
  resume _ st k := Nest.step gate st k
  look st := M.look st.state

end Theory

end RxCppUniq
