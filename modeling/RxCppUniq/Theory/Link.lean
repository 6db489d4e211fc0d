import RxCppUniq.Theory.Component

/-!
# Linked Components

A component with parts whose code is given. The parts exist from the start,
have no parts of their own, and answer in the calls of the component, which is
their environment. The only party left open is the environment of the
component. Between two of its moves a linked component is deterministic.

So a run is one of the environment's moves, each of which is answered by a
number of steps the component and its parts make by themselves. `Settles` says
that they come to an end and what holds then, and it is proved backwards, one
piece of code at a time. A linked component that settles has not failed and is
not caught in a loop. Whether all of its calls return is then a question of the
moves in which the environment returns from calls itself.

## Main definitions

* `Parts`: The code of the parts.
* `Linked`: A component with its parts, and one stack for all of them.
* `Linked.step`: The component or a part goes on.
* `Linked.Reach`: The states that runs reach.
* `Linked.Settles`: The environment gets its turn, and then something holds.
* `Linked.follow`, `Linked.AtRest`: A run in which the environment only returns
  from calls, and its end.

## Theorems

* `Linked.Settles.of_run`, `Linked.Settles.of_ask`, `Linked.Settles.of_part`,
  `Linked.Settles.of_said`: One piece of code is run.
* `Linked.Reach.settles`: What settles after every move of the environment does
  so throughout.
* `Linked.follows_uncalled`: Such a run adds no calls of the environment.
* `Linked.rests`: A run in which the environment only returns comes to rest
  when a measure decreases.
-/

namespace RxCppUniq

namespace Theory

variable {C O V ι : Type} {P : ι → Type}

/-- The code of the parts of a component. Their states are of one type and say
    of which kind a part is. -/
structure Parts (C V ι : Type) (P : ι → Type) where
  State : Type
  Point : Type
  kind : State → ι
  /-- The component calls the part. -/
  call : (u : State) → C → State × Act C (P (kind u)) Empty Point
  /-- A call made by the part has returned. -/
  resume : (u : State) → Point → State × Act C (P (kind u)) Empty Point
  /-- What the component may read of the part without calling it. -/
  look : State → V

namespace Linked

/-- Who waits for a call to return. -/
inductive Frame (K L : Type) where
  | env
  | own (k : K)
  | part (p : Nat) (k : L)

/-- What is next. -/
inductive Turn (C ι K L : Type) (P : ι → Type) where
  /-- A move of the environment. -/
  | outside
  /-- The component goes on at a point. -/
  | run (k : K)
  /-- The component calls a part. -/
  | ask (p : Nat) (c : C)
  /-- A part goes on at a point. -/
  | part (p : Nat) (k : L)
  /-- A part calls the component. -/
  | said (p : Nat) (i : ι) (o : P i)
  /-- A check has failed. -/
  | failed (msg : String)

@[simp] def Turn.isOutside {K L : Type} : Turn C ι K L P → Bool
  | .outside => true
  | .run _ => false
  | .ask _ _ => false
  | .part _ _ => false
  | .said _ _ _ => false
  | .failed _ => false

end Linked

/-- A component with parts. -/
structure LinkedState (S K U L C O ι : Type) (P : ι → Type) where
  state : S
  parts : List U
  /-- How many of the parts the component has created. -/
  made : Nat := 0
  stack : List (Linked.Frame K L) := []
  turn : Linked.Turn C ι K L P := .outside
  /-- The calls across the boundary of the component, the newest first. -/
  log : List (Note C O ι P) := []

abbrev Linked (M : Component C O V ι P) (N : Parts C V ι P) :=
  LinkedState M.State M.Point N.State N.Point C O ι P

namespace Linked

section Step

variable {S K U L : Type}

/-- Return to who made the innermost call. -/
def back (st : LinkedState S K U L C O ι P) : LinkedState S K U L C O ι P :=
  match st.stack with
  | [] => { st with turn := .outside }
  | .env :: rest => { st with turn := .outside, stack := rest }
  | .own k :: rest => { st with turn := .run k, stack := rest }
  | .part p k :: rest => { st with turn := .part p k, stack := rest }

theorem back_own {st : LinkedState S K U L C O ι P} {k : K} {rest : List (Frame K L)}
    (h : st.stack = .own k :: rest) : back st = { st with turn := .run k, stack := rest } := by
  rw [back, h]

theorem back_part {st : LinkedState S K U L C O ι P} {p : Nat} {k : L} {rest : List (Frame K L)}
    (h : st.stack = .part p k :: rest) :
    back st = { st with turn := .part p k, stack := rest } := by
  rw [back, h]

/-- The message of the fault for calling a part that is not there. -/
def noSuchPart : String := "no such part"

/-- Carry out what a piece of the component's code ended with. A call on a part
    goes through `gate`, which may refuse it for what is read of the part. -/
def perform (gate : Nat → C → Option String) (st : LinkedState S K U L C O ι P) :
    S × Act C O ι K → LinkedState S K U L C O ι P
  | (s, .ret) => back { st with state := s }
  | (s, .goto k) => { st with state := s, turn := .run k }
  | (s, .out o k) =>
      { st with
        state := s, turn := .outside
        stack := .own k :: st.stack, log := .out o :: st.log }
  | (s, .ask p c k) =>
      match gate p c with
      | some msg => { st with state := s, turn := .failed msg }
      | none =>
          { st with
            state := s, turn := .ask p c
            stack := .own k :: st.stack, log := .ask p c :: st.log }
  | (s, .make _ c k) =>
      { st with
        state := s, turn := .ask st.made c, made := st.made + 1
        stack := .own k :: st.stack, log := .ask st.made c :: st.log }
  | (s, .fail msg) => { st with state := s, turn := .failed msg }

theorem perform_ask (gate : Nat → C → Option String) (st : LinkedState S K U L C O ι P) (s : S)
    (p : Nat) (c : C) (k : K) (h : gate p c = none) :
    perform gate st (s, .ask p c k) = { st with
      state := s, turn := .ask p c
      stack := .own k :: st.stack, log := .ask p c :: st.log } := by
  simp only [perform, h]

/-- Carry out what a piece of the code of a part ended with. -/
def answer (st : LinkedState S K U L C O ι P) (p : Nat) (i : ι) :
    U × Act C (P i) Empty L → LinkedState S K U L C O ι P
  | (u, .ret) => back { st with parts := st.parts.set p u }
  | (u, .goto k) => { st with parts := st.parts.set p u, turn := .part p k }
  | (u, .out o k) =>
      { st with
        parts := st.parts.set p u, turn := .said p i o
        stack := .part p k :: st.stack, log := .said p i o :: st.log }
  | (u, .ask _ _ _) => { st with parts := st.parts.set p u, turn := .failed noSuchPart }
  | (_, .make i _ _) => nomatch i
  | (u, .fail msg) => { st with parts := st.parts.set p u, turn := .failed msg }

end Step

variable {M : Component C O V ι P} {N : Parts C V ι P} (gate : V → C → Option String)

section Run

variable [Inhabited V]

/-- What is read of the parts. -/
def views (st : Linked M N) (p : Nat) : V :=
  (st.parts[p]?.map N.look).getD default

theorem views_eq {st : Linked M N} {p : Nat} {u : N.State} (h : st.parts[p]? = some u) :
    st.views p = N.look u := by
  rw [views, h]
  rfl

/-- The component or a part goes on, if it is not the environment's turn. -/
def step (st : Linked M N) : Linked M N :=
  match st.turn with
  | .outside => st
  | .run k => perform (fun p => gate (st.views p)) st (M.resume st.views st.state k)
  | .ask p c =>
      match st.parts[p]? with
      | none => { st with turn := .failed noSuchPart }
      | some u => answer st p (N.kind u) (N.call u c)
  | .part p k =>
      match st.parts[p]? with
      | none => { st with turn := .failed noSuchPart }
      | some u => answer st p (N.kind u) (N.resume u k)
  | .said p i o => perform (fun p => gate (st.views p)) st (M.said st.views st.state p i o)
  | .failed _ => st

/-- The environment calls the component. -/
def call (st : Linked M N) (c : C) : Linked M N :=
  perform (fun p => gate (st.views p))
    { st with stack := .env :: st.stack, log := .call c :: st.log } (M.call st.views st.state c)

/-- The environment returns from the innermost call of the component. -/
def reply (st : Linked M N) : Linked M N :=
  match st.stack with
  | .own k :: rest => { st with turn := .run k, stack := rest }
  | _ => st

omit [Inhabited V] in
theorem reply_own {st : Linked M N} {k : M.Point} {rest : List (Frame M.Point N.Point)}
    (h : st.stack = .own k :: rest) : st.reply = { st with turn := .run k, stack := rest } := by
  rw [reply, h]

/-- The states that runs reach in which the environment keeps the rules
    `allow`. -/
inductive Reach (allow : Linked M N → C → Prop) (parts : List N.State) : Linked M N → Prop where
  | init : Reach allow parts { state := M.start, parts := parts }
  | step (st : Linked M N) (reached : Reach allow parts st) : Reach allow parts (st.step gate)
  | call (st : Linked M N) (c : C) (reached : Reach allow parts st)
      (turn : st.turn.isOutside = true) (open_ : gate (M.look st.state) c = none)
      (ok : allow st c) : Reach allow parts (st.call gate c)
  | reply (st : Linked M N) (reached : Reach allow parts st) (turn : st.turn.isOutside = true) :
      Reach allow parts st.reply

/-- Some steps. -/
def steps : Nat → Linked M N → Linked M N
  | 0, st => st
  | n + 1, st => steps n (st.step gate)

/-- The environment gets its turn, and then something holds. -/
def Settles (Inv : Linked M N → Prop) (st : Linked M N) : Prop :=
  ∃ n, (steps gate n st).turn.isOutside = true ∧ Inv (steps gate n st)

theorem settles_of_outside {Inv : Linked M N → Prop} {st : Linked M N}
    (hturn : st.turn.isOutside = true) (h : Inv st) : Settles gate Inv st :=
  ⟨0, hturn, h⟩

variable {gate}

namespace Settles

variable {Inv Inv' : Linked M N → Prop} {st : Linked M N}

/-- One piece of code is run. -/
theorem of_step (h : Settles gate Inv (st.step gate)) : Settles gate Inv st := by
  rcases h with ⟨n, hn⟩
  exact ⟨n + 1, hn⟩

theorem mono (h : Settles gate Inv st) (hle : ∀ st, Inv st → Inv' st) : Settles gate Inv' st := by
  rcases h with ⟨n, hturn, hinv⟩
  exact ⟨n, hturn, hle _ hinv⟩

end Settles

namespace Settles

variable {Inv : Linked M N → Prop} {st : Linked M N}

/-! One piece of code is run, by what is next. -/

theorem of_run {k : M.Point} (r : M.State × Act C O ι M.Point) (hturn : st.turn = .run k)
    (hcode : M.resume st.views st.state k = r)
    (h : Settles gate Inv (perform (fun p => gate (st.views p)) st r)) : Settles gate Inv st := by
  refine of_step ?_
  rw [Linked.step, hturn]
  simp only [hcode]
  exact h

theorem of_ask {p : Nat} {c : C} {u : N.State}
    (r : N.State × Act C (P (N.kind u)) Empty N.Point) (hturn : st.turn = .ask p c)
    (hu : st.parts[p]? = some u) (hcode : N.call u c = r)
    (h : Settles gate Inv (answer st p (N.kind u) r)) : Settles gate Inv st := by
  refine of_step ?_
  rw [Linked.step, hturn]
  simp only [hu, hcode]
  exact h

theorem of_part {p : Nat} {k : N.Point} {u : N.State}
    (r : N.State × Act C (P (N.kind u)) Empty N.Point) (hturn : st.turn = .part p k)
    (hu : st.parts[p]? = some u) (hcode : N.resume u k = r)
    (h : Settles gate Inv (answer st p (N.kind u) r)) : Settles gate Inv st := by
  refine of_step ?_
  rw [Linked.step, hturn]
  simp only [hu, hcode]
  exact h

theorem of_said {p : Nat} {i : ι} {o : P i} (r : M.State × Act C O ι M.Point)
    (hturn : st.turn = .said p i o) (hcode : M.said st.views st.state p i o = r)
    (h : Settles gate Inv (perform (fun p => gate (st.views p)) st r)) : Settles gate Inv st := by
  refine of_step ?_
  rw [Linked.step, hturn]
  simp only [hcode]
  exact h

end Settles

/-- When the environment has its turn nothing happens by itself. -/
theorem step_outside {st : Linked M N} (h : st.turn.isOutside = true) : st.step gate = st := by
  unfold step
  cases hturn : st.turn with
  | outside => rfl
  | failed msg => rfl
  | _ =>
      rw [hturn] at h
      exact absurd h Bool.false_ne_true

theorem steps_outside {st : Linked M N} (h : st.turn.isOutside = true) (n : Nat) :
    steps gate n st = st := by
  induction n with
  | zero => rfl
  | succ n ih => rw [steps, step_outside h, ih]

namespace Settles

variable {Inv : Linked M N → Prop} {st : Linked M N}

/-- What settles still does after a step. -/
theorem step (h : Settles gate Inv st) : Settles gate Inv (st.step gate) := by
  rcases h with ⟨n, hturn, hinv⟩
  cases n with
  | zero =>
      have hstep : st.step gate = st := step_outside hturn
      rw [hstep]
      exact ⟨0, hturn, hinv⟩
  | succ n => exact ⟨n, hturn, hinv⟩

/-- When the environment has its turn what settles is settled. -/
theorem holds (h : Settles gate Inv st) (hturn : st.turn.isOutside = true) : Inv st := by
  rcases h with ⟨n, -, hinv⟩
  rw [steps_outside hturn] at hinv
  exact hinv

/-- What settles has not failed. -/
theorem not_failed (h : Settles gate Inv st) (msg : String) : st.turn ≠ .failed msg := by
  rcases h with ⟨n, hturn, -⟩
  intro hfailed
  have hstuck : ∀ n, steps gate n st = st := by
    intro n
    induction n with
    | zero => rfl
    | succ n ih =>
        rw [steps, Linked.step, hfailed]
        exact ih
  rw [hstuck, hfailed] at hturn
  exact absurd hturn Bool.false_ne_true

end Settles

/-- What settles after every move of the environment settles throughout. -/
theorem Reach.settles {allow : Linked M N → C → Prop} {parts : List N.State}
    (Inv : Linked M N → Prop) (hinit : Inv { state := M.start, parts := parts })
    (hcall : ∀ st c, Inv st → st.turn.isOutside = true → gate (M.look st.state) c = none →
      allow st c → Settles gate Inv (st.call gate c))
    (hreply : ∀ st, Inv st → st.turn.isOutside = true → Settles gate Inv st.reply)
    (st : Linked M N) (h : Reach gate allow parts st) : Settles gate Inv st := by
  induction h with
  | init => exact settles_of_outside gate rfl hinit
  | step st _ ih => exact ih.step
  | call st c _ turn open_ ok ih => exact hcall st c (ih.holds turn) turn open_ ok
  | reply st _ turn ih => exact hreply st (ih.holds turn) turn

/-- One step of a run in which the environment only returns from calls. -/
def follow (gate : V → C → Option String) (st : Linked M N) : Linked M N :=
  if st.turn.isOutside then st.reply else st.step gate

def follows (gate : V → C → Option String) : Nat → Linked M N → Linked M N
  | 0, st => st
  | n + 1, st => follows gate n (follow gate st)

/-- Between two logs the environment has not called. -/
def Uncalled (log log' : List (Note C O ι P)) : Prop :=
  ∃ new, log' = new ++ log ∧ ∀ c, Note.call c ∉ new

namespace Uncalled

theorem refl (log : List (Note C O ι P)) : Uncalled log log :=
  ⟨[], rfl, fun _ => List.not_mem_nil⟩

theorem trans {log log' log'' : List (Note C O ι P)} (h : Uncalled log log')
    (h' : Uncalled log' log'') : Uncalled log log'' := by
  rcases h with ⟨new, rfl, hnew⟩
  rcases h' with ⟨new', rfl, hnew'⟩
  refine ⟨new' ++ new, (List.append_assoc ..).symm, fun c hc => ?_⟩
  rcases List.mem_append.mp hc with hc | hc
  · exact hnew' c hc
  · exact hnew c hc

theorem cons (n : Note C O ι P) (log : List (Note C O ι P)) (hn : ∀ c, n ≠ .call c) :
    Uncalled log (n :: log) :=
  ⟨[n], rfl, fun c hc => hn c (List.mem_singleton.mp hc).symm⟩

end Uncalled

theorem back_log {S K U L : Type} (st : LinkedState S K U L C O ι P) : (back st).log = st.log := by
  unfold back
  split <;> rfl

theorem perform_uncalled {S K U L : Type} (gate : Nat → C → Option String)
    (st : LinkedState S K U L C O ι P) (r : S × Act C O ι K) :
    Uncalled st.log (perform gate st r).log := by
  rcases r with ⟨s, a⟩
  cases a with
  | ret =>
      rw [perform, back_log]
      exact .refl _
  | goto k => exact .refl _
  | out o k => exact .cons _ _ fun c => by simp only [ne_eq, reduceCtorEq, not_false_eq_true]
  | make i c k => exact .cons _ _ fun c => by simp only [ne_eq, reduceCtorEq, not_false_eq_true]
  | fail msg => exact .refl _
  | ask p c k =>
      cases hgate : gate p c with
      | some msg =>
          simp only [perform, hgate]
          exact .refl _
      | none =>
          rw [perform_ask _ _ _ _ _ _ hgate]
          exact .cons _ _ fun c => by simp only [ne_eq, reduceCtorEq, not_false_eq_true]

theorem answer_uncalled {S K U L : Type} (st : LinkedState S K U L C O ι P) (p : Nat) (i : ι)
    (r : U × Act C (P i) Empty L) : Uncalled st.log (answer st p i r).log := by
  rcases r with ⟨u, a⟩
  cases a with
  | ret =>
      rw [answer, back_log]
      exact .refl _
  | goto k => exact .refl _
  | out o k => exact .cons _ _ fun c => by simp only [ne_eq, reduceCtorEq, not_false_eq_true]
  | make i c k => exact nomatch i
  | fail msg => exact .refl _
  | ask p c k => exact .refl _

/-- In such a run the environment does not call. -/
theorem follow_uncalled (st : Linked M N) : Uncalled st.log (follow gate st).log := by
  unfold follow
  by_cases hturn : st.turn.isOutside = true
  · rw [if_pos hturn]
    unfold reply
    split <;> exact .refl _
  · rw [if_neg hturn]
    unfold step
    cases st.turn with
    | outside => exact .refl _
    | failed msg => exact .refl _
    | run k => exact perform_uncalled _ _ _
    | said p i o => exact perform_uncalled _ _ _
    | ask p c =>
        simp only []
        cases st.parts[p]? with
        | none => exact .refl _
        | some u => exact answer_uncalled _ _ _ _
    | part p k =>
        simp only []
        cases st.parts[p]? with
        | none => exact .refl _
        | some u => exact answer_uncalled _ _ _ _

theorem follows_uncalled (gate : V → C → Option String) (n : Nat) (st : Linked M N) :
    Uncalled st.log (follows gate n st).log := by
  induction n generalizing st with
  | zero => exact .refl _
  | succ n ih => exact (follow_uncalled st).trans (ih _)

/-- Nothing is left to do and every call has returned. -/
def AtRest (st : Linked M N) : Prop :=
  st.turn.isOutside = true ∧ st.stack = []

/-- Such a run is one under any rules. -/
theorem Reach.follows {allow : Linked M N → C → Prop} {parts : List N.State} (n : Nat)
    (st : Linked M N) (h : Reach gate allow parts st) :
    Reach gate allow parts (follows gate n st) := by
  induction n generalizing st with
  | zero => exact h
  | succ n ih =>
      refine ih _ ?_
      unfold follow
      by_cases hturn : st.turn.isOutside = true
      · rw [if_pos hturn]
        exact .reply st h hturn
      · rw [if_neg hturn]
        exact .step st h

theorem follows_add (n m : Nat) (st : Linked M N) :
    Linked.follows gate (n + m) st = Linked.follows gate m (Linked.follows gate n st) := by
  induction n generalizing st with
  | zero => rw [Nat.zero_add, Linked.follows]
  | succ n ih => rw [Nat.add_right_comm, Linked.follows, ih, Linked.follows]

/-- Steps up to the turn of the environment are such a run. -/
theorem follows_of_settles {Inv : Linked M N → Prop} {st : Linked M N}
    (h : Settles gate Inv st) :
    ∃ n, (Linked.follows gate n st).turn.isOutside = true ∧ Inv (Linked.follows gate n st) := by
  rcases h with ⟨n, hturn, hinv⟩
  induction n generalizing st with
  | zero => exact ⟨0, hturn, hinv⟩
  | succ n ih =>
      by_cases hout : st.turn.isOutside = true
      · rw [steps_outside hout] at hturn hinv
        exact ⟨0, hturn, hinv⟩
      · rcases ih hturn hinv with ⟨m, hm⟩
        refine ⟨m + 1, ?_⟩
        rw [Linked.follows, follow, if_neg hout]
        exact hm

/-- A run in which the environment only returns comes to rest when a measure
    decreases with every return. -/
theorem rests {Inv : Linked M N → Prop} (measure : Linked M N → Nat)
    (hreply : ∀ st, Inv st → st.turn.isOutside = true → st.stack ≠ [] →
      Settles gate (fun st' => Inv st' ∧ measure st' < measure st) st.reply)
    (st : Linked M N) (h : Settles gate Inv st) :
    ∃ n, AtRest (Linked.follows gate n st) ∧ Inv (Linked.follows gate n st) := by
  have hmeasure : ∀ m st, Inv st → st.turn.isOutside = true → measure st < m →
      ∃ n, AtRest (Linked.follows gate n st) ∧ Inv (Linked.follows gate n st) := by
    intro m
    induction m with
    | zero => exact fun st _ _ hlt => absurd hlt (Nat.not_lt_zero _)
    | succ m ih =>
        intro st hinv hturn hlt
        by_cases hstack : st.stack = []
        · exact ⟨0, ⟨hturn, hstack⟩, hinv⟩
        · rcases follows_of_settles (hreply st hinv hturn hstack) with ⟨n, hout, hinv', hless⟩
          rcases ih _ hinv' hout (by omega) with ⟨n', hn'⟩
          refine ⟨n + n' + 1, ?_⟩
          rw [Linked.follows, follow, if_pos hturn, follows_add]
          exact hn'
  rcases follows_of_settles h with ⟨n, hturn, hinv⟩
  rcases hmeasure _ _ hinv hturn (Nat.lt_succ_self _) with ⟨n', hn'⟩
  exact ⟨n + n', by rwa [follows_add]⟩

end Run

end Linked

end Theory

end RxCppUniq
