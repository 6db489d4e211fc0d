import Mathlib.Logic.Relation
import RxCppUniq.Theory.Component

/-!
# Open Runs

A component among partners about which nothing is known but the rules they
keep. The environment and every part are played by an adversary: whenever
control is outside the component, the adversary makes the next move, any move
the rules allow. A property proved of every reachable state is a property of
the component next to all partners that keep the rules, those that answer at
once and those that answer much later.

The stack holds the points at which the component waits, each with the
partner it waits for. A call that comes in while the stack is not empty is a
reentrant one.

The log records the calls across the boundary, the newest first. Rules and
invariants are about the log as much as about the state: how much was asked
of a part is not a field of any component, but it is a tally of the log.

## Main definitions

* `Open`: A component with its stack, its log and the views of its parts.
* `Move`: What may happen next.
* `Open.perform`: Carry out what a piece of code ended with.
* `Open.Step`, `Open.Reach`: One step under given rules, and the states that
  runs reach.
* `Open.Later`: The states that runs reach from a given one.
* `Open.Runs`: The pieces of code that a step may run.
* `Open.advance`: The component goes on by itself.
* `Open.play`: A run given as a list of moves.

## Theorems

* `Open.Reach.induct`: What holds at the start and is kept by every step
  holds of every reachable state.
* `Open.Reach.mono`: Under rules that allow more, more is reached.
* `Open.Reach.idle`: Nothing is executed before the first call.
* `Open.Reach.failed`: A run fails where a piece of code does.
* `Open.Reach.waiting`: What is true of the points at which the code waits for
  a call is true of the stack.
* `Open.exists_reach_of_play`: Evaluating a list of moves gives a reachable
  state.
-/

namespace RxCppUniq

namespace Theory

variable {C O V ι : Type} {P : ι → Type}

/-- Who was called. -/
inductive Callee where
  | env
  | part (p : Nat)
deriving DecidableEq

/-- Whose turn it is: the partners', the component's own at a point, or
    nobody's after a failed check. -/
inductive Turn (K : Type) where
  | outside
  | run (k : K)
  | failed (msg : String)

@[simp] def Turn.isFailed {K : Type} : Turn K → Bool
  | .outside => false
  | .run _ => false
  | .failed _ => true

def Turn.isOutside {K : Type} : Turn K → Bool
  | .outside => true
  | .run _ => false
  | .failed _ => false

theorem Turn.isOutside_iff {K : Type} (t : Turn K) : t.isOutside = true ↔ t = .outside := by
  cases t <;> simp only [Turn.isOutside, Bool.false_eq_true, reduceCtorEq]

/-- A component with the state `S` and the points `K` in an open run. -/
structure OpenState (S K C O V ι : Type) (P : ι → Type) where
  state : S
  /-- The kinds of the parts created so far, by number. -/
  kinds : List ι
  views : Nat → V
  stack : List (Callee × K)
  turn : Turn K
  /-- The calls across the boundary, the newest first. -/
  log : List (Note C O ι P)

/-- The open runs of a component. -/
abbrev Open (M : Component C O V ι P) := OpenState M.State M.Point C O V ι P

/-- A move in a run, of the partners or of the component itself. -/
inductive Move (C V ι : Type) (P : ι → Type) where
  /-- The environment calls the component. -/
  | call (c : C)
  /-- A part calls the component. -/
  | said (p : Nat) (i : ι) (o : P i)
  /-- The innermost call made by the component returns. -/
  | reply
  /-- What may be read of a part changes. -/
  | view (p : Nat) (v : V)
  /-- The component goes on where it is. The partners have no part in it, but
      a condition on the steps of a run may speak of it. -/
  | run

namespace Open

section Perform

variable {S K : Type} (gate : V → C → Option String) (st : OpenState S K C O V ι P) (s : S)

/-- Carry out what a piece of code ended with. A call on a part goes through
    `gate`, which may refuse it for what is read of the part. -/
def perform : S × Act C O ι K → OpenState S K C O V ι P
  | (s, .ret) => { st with state := s, turn := .outside }
  | (s, .goto k) => { st with state := s, turn := .run k }
  | (s, .out o k) =>
      { st with
        state := s, turn := .outside
        stack := (.env, k) :: st.stack, log := .out o :: st.log }
  | (s, .ask p c k) =>
      match gate (st.views p) c with
      | some msg => { st with state := s, turn := .failed msg }
      | none =>
          { st with
            state := s, turn := .outside
            stack := (.part p, k) :: st.stack, log := .ask p c :: st.log }
  | (s, .make i c k) =>
      { st with
        state := s, turn := .outside
        kinds := st.kinds ++ [i]
        stack := (.part st.kinds.length, k) :: st.stack
        log := .ask st.kinds.length c :: st.log }
  | (s, .fail msg) => { st with state := s, turn := .failed msg }

@[simp] theorem perform_ret :
    perform gate st (s, .ret) = { st with state := s, turn := .outside } := rfl

@[simp] theorem perform_goto (k : K) :
    perform gate st (s, .goto k) = { st with state := s, turn := .run k } := rfl

@[simp] theorem perform_out (o : O) (k : K) :
    perform gate st (s, .out o k) =
      { st with
        state := s, turn := .outside
        stack := (.env, k) :: st.stack, log := .out o :: st.log } := rfl

theorem perform_ask (p : Nat) (c : C) (k : K) (h : gate (st.views p) c = none) :
    perform gate st (s, .ask p c k) =
      { st with
        state := s, turn := .outside
        stack := (.part p, k) :: st.stack, log := .ask p c :: st.log } := by
  simp only [perform, h]

/-- A call on a part is refused or it is made. -/
theorem perform_ask_cases (p : Nat) (c : C) (k : K) :
    (∃ msg, perform gate st (s, .ask p c k) = { st with state := s, turn := .failed msg }) ∨
      perform gate st (s, .ask p c k) =
        { st with
          state := s, turn := .outside
          stack := (.part p, k) :: st.stack, log := .ask p c :: st.log } := by
  cases h : gate (st.views p) c with
  | none => exact Or.inr (perform_ask gate st s p c k h)
  | some msg => exact Or.inl ⟨msg, by simp only [perform, h]⟩

@[simp] theorem perform_make (i : ι) (c : C) (k : K) :
    perform gate st (s, .make i c k) =
      { st with
        state := s, turn := .outside
        kinds := st.kinds ++ [i]
        stack := (.part st.kinds.length, k) :: st.stack
        log := .ask st.kinds.length c :: st.log } := rfl

@[simp] theorem perform_fail (msg : String) :
    perform gate st (s, .fail msg) = { st with state := s, turn := .failed msg } := rfl

/-- What was called before is still in the log. -/
theorem perform_log_suffix (r : S × Act C O ι K) : st.log <:+ (perform gate st r).log := by
  rcases r with ⟨s, a⟩
  cases a with
  | ret => exact List.suffix_refl _
  | goto k => exact List.suffix_refl _
  | out o k => exact List.suffix_cons _ _
  | make i c k => exact List.suffix_cons _ _
  | fail msg => exact List.suffix_refl _
  | ask p c k =>
      rcases perform_ask_cases gate st s p c k with ⟨msg, hfail⟩ | hask
      · exact hfail ▸ List.suffix_refl _
      · exact hask ▸ List.suffix_cons _ _

/-- A log without entries had none before. -/
theorem perform_log_nil (r : S × Act C O ι K) (h : (perform gate st r).log = []) :
    st.log = [] :=
  List.suffix_nil.mp (h ▸ perform_log_suffix gate st r)

end Perform

variable {M : Component C O V ι P}

/-- A run begins with a component nobody has called. -/
def init (M : Component C O V ι P) [Inhabited V] : Open M :=
  { state := M.start, kinds := [], views := fun _ => default, stack := [],
    turn := .outside, log := [] }

/-- One step of a run under the rules `allow`. -/
inductive Step (gate : V → C → Option String) (allow : Open M → Move C V ι P → Prop) :
    Open M → Open M → Prop where
  | call (st : Open M) (c : C) (turn : st.turn = .outside)
      (open_ : gate (M.look st.state) c = none) (ok : allow st (.call c)) :
      Step gate allow st
        (perform gate { st with log := .call c :: st.log } (M.call st.views st.state c))
  | said (st : Open M) (p : Nat) (i : ι) (o : P i) (turn : st.turn = .outside)
      (kind : st.kinds[p]? = some i) (ok : allow st (.said p i o)) :
      Step gate allow st
        (perform gate { st with log := .said p i o :: st.log }
          (M.said st.views st.state p i o))
  | reply (st : Open M) (who : Callee) (k : M.Point) (rest : List (Callee × M.Point))
      (turn : st.turn = .outside) (top : st.stack = (who, k) :: rest)
      (ok : allow st .reply) :
      Step gate allow st
        (perform gate { st with stack := rest } (M.resume st.views st.state k))
  | view (st : Open M) (p : Nat) (v : V) (turn : st.turn = .outside)
      (ok : allow st (.view p v)) :
      Step gate allow st { st with views := fun q => if q = p then v else st.views q }
  | run (st : Open M) (k : M.Point) (turn : st.turn = .run k) (ok : allow st .run) :
      Step gate allow st (perform gate st (M.resume st.views st.state k))

/-- A step forgets no call. -/
theorem Step.log_suffix {gate : V → C → Option String} {allow : Open M → Move C V ι P → Prop}
    {st st' : Open M} (h : Step gate allow st st') : st.log <:+ st'.log := by
  cases h with
  | call c turn open_ ok =>
      exact (List.suffix_cons _ _).trans
        (perform_log_suffix gate { st with log := .call c :: st.log } _)
  | said p i o turn kind ok =>
      exact (List.suffix_cons _ _).trans
        (perform_log_suffix gate { st with log := .said p i o :: st.log } _)
  | reply who k rest turn top ok => exact perform_log_suffix gate { st with stack := rest } _
  | view p v turn ok => exact List.suffix_refl _
  | run k turn ok => exact perform_log_suffix gate st _

/-- While the component is at a point, nobody else makes a move. -/
theorem Step.of_run {gate : V → C → Option String} {allow : Open M → Move C V ι P → Prop}
    {st st' : Open M} (h : Step gate allow st st') {k : M.Point} (hturn : st.turn = .run k) :
    st' = perform gate st (M.resume st.views st.state k) := by
  cases h with
  | call c turn _ _ => exact absurd (turn.symm.trans hturn) (fun hno => (by cases hno))
  | said p i o turn _ _ => exact absurd (turn.symm.trans hturn) (fun hno => (by cases hno))
  | reply who k rest turn _ _ => exact absurd (turn.symm.trans hturn) (fun hno => (by cases hno))
  | view p v turn _ => exact absurd (turn.symm.trans hturn) (fun hno => (by cases hno))
  | run k' turn _ => rw [Turn.run.inj (turn.symm.trans hturn)]

/-- The states that runs under the rules reach. -/
inductive Reach [Inhabited V] (gate : V → C → Option String)
    (allow : Open M → Move C V ι P → Prop) : Open M → Prop where
  | init : Reach gate allow (init M)
  | step (st st' : Open M) (reached : Reach gate allow st)
      (next : Step gate allow st st') : Reach gate allow st'

/-- What holds at the start and is kept by every step holds of every
    reachable state. -/
theorem Reach.induct [Inhabited V] {gate : V → C → Option String}
    {allow : Open M → Move C V ι P → Prop} (Inv : Open M → Prop)
    (hinit : Inv (Open.init M))
    (hstep : ∀ st st', Reach gate allow st → Inv st → Step gate allow st st' → Inv st')
    (st : Open M) (h : Reach gate allow st) : Inv st := by
  induction h with
  | init => exact hinit
  | step st st' reached next ih => exact hstep st st' reached ih next

/-- A step under rules is one under rules that allow more. -/
theorem Step.mono {gate : V → C → Option String} {allow allow' : Open M → Move C V ι P → Prop}
    (hle : ∀ st m, allow st m → allow' st m) (st st' : Open M) (h : Step gate allow st st') :
    Step gate allow' st st' := by
  cases h with
  | call c turn open_ ok => exact .call st c turn open_ (hle st _ ok)
  | said p i o turn kind ok => exact .said st p i o turn kind (hle st _ ok)
  | reply who k rest turn top ok => exact .reply st who k rest turn top (hle st _ ok)
  | view p v turn ok => exact .view st p v turn (hle st _ ok)
  | run k turn ok => exact .run st k turn (hle st _ ok)

/-- A step under rules that also ask something of the state. -/
theorem Step.and {gate : V → C → Option String} {allow : Open M → Move C V ι P → Prop}
    {q : Open M → Prop} {st st' : Open M}
    (h : Step gate (fun st m => allow st m ∧ q st) st st') : Step gate allow st st' ∧ q st := by
  refine ⟨h.mono fun _ _ hok => hok.1, ?_⟩
  cases h with
  | call c turn open_ ok => exact ok.2
  | said p i o turn kind ok => exact ok.2
  | reply who k rest turn top ok => exact ok.2
  | view p v turn ok => exact ok.2
  | run k turn ok => exact ok.2

theorem Reach.mono [Inhabited V] {gate : V → C → Option String}
    {allow allow' : Open M → Move C V ι P → Prop} (hle : ∀ st m, allow st m → allow' st m)
    (st : Open M) (h : Reach gate allow st) : Reach gate allow' st := by
  induction h with
  | init => exact .init
  | step st st' _ next ih => exact .step st st' ih (next.mono hle)

/-- The states that a run gets to from a given one. -/
abbrev Later (gate : V → C → Option String) (allow : Open M → Move C V ι P → Prop) :
    Open M → Open M → Prop :=
  Relation.ReflTransGen (Step gate allow)

theorem Reach.later [Inhabited V] {gate : V → C → Option String}
    {allow : Open M → Move C V ι P → Prop} {st st' : Open M} (h : Reach gate allow st)
    (hlater : Later gate allow st st') : Reach gate allow st' := by
  induction hlater with
  | refl => exact h
  | tail _ hstep ih => exact .step _ _ ih hstep

/-- The component goes on at a point: the innermost call has returned, or it
    is at the point already. -/
def Resumes (allow : Open M → Move C V ι P → Prop) (st : Open M) (k : M.Point) : Prop :=
  (st.turn = .outside ∧ allow st .reply ∧ ∃ who rest, st.stack = (who, k) :: rest) ∨
    (st.turn = .run k ∧ allow st .run)

/-- Nothing goes on after a failed check. -/
theorem Resumes.isFailed {allow : Open M → Move C V ι P → Prop} {st : Open M} {k : M.Point}
    (h : Resumes allow st k) : st.turn.isFailed = false := by
  rcases h with ⟨houtside, -⟩ | ⟨hrun, -⟩
  · rw [houtside]
    rfl
  · rw [hrun]
    rfl

/-- Before the first call nothing is executed and nobody is waited for. -/
theorem Reach.idle [Inhabited V] {gate : V → C → Option String}
    {allow : Open M → Move C V ι P → Prop} (st : Open M) (h : Reach gate allow st)
    (hlog : st.log = []) : st.stack = [] ∧ st.turn = .outside := by
  induction h with
  | init => exact ⟨rfl, rfl⟩
  | step st st' _ next ih =>
      cases next with
      | call c _ _ _ => exact absurd (perform_log_nil _ _ _ hlog) (List.cons_ne_nil _ _)
      | said p i o _ _ _ => exact absurd (perform_log_nil _ _ _ hlog) (List.cons_ne_nil _ _)
      | reply who k rest _ top _ =>
          have hnil := (ih (perform_log_nil gate { st with stack := rest } _ hlog)).1
          rw [top] at hnil
          exact absurd hnil (List.cons_ne_nil _ _)
      | view p v _ _ => exact ih hlog
      | run k turn _ =>
          have hturn := (ih (perform_log_nil _ _ _ hlog)).2
          rw [turn] at hturn
          exact absurd hturn (by simp)

theorem Resumes.log_ne_nil [Inhabited V] {gate : V → C → Option String}
    {allow : Open M → Move C V ι P → Prop} {st : Open M} {k : M.Point}
    (h : Resumes allow st k) (hreach : Reach gate allow st) : st.log ≠ [] := by
  intro hlog
  rcases hreach.idle st hlog with ⟨hstack, hturn⟩
  rcases h with ⟨-, -, who, rest, htop⟩ | ⟨hrun, -⟩
  · rw [hstack] at htop
    exact absurd htop (by simp)
  · rw [hturn] at hrun
    exact absurd hrun (by simp)

/-- The pieces of code that a step may run. -/
inductive Runs (allow : Open M → Move C V ι P → Prop) (st : Open M) :
    M.State × Act C O ι M.Point → Prop where
  | call (c : C) (turn : st.turn = .outside) (ok : allow st (.call c)) :
      Runs allow st (M.call st.views st.state c)
  | said (p : Nat) (i : ι) (o : P i) (turn : st.turn = .outside) (kind : st.kinds[p]? = some i)
      (ok : allow st (.said p i o)) : Runs allow st (M.said st.views st.state p i o)
  | resume (k : M.Point) (resumes : Resumes allow st k) :
      Runs allow st (M.resume st.views st.state k)

/-- A check has failed in a piece of code, or in front of a call on a part. -/
theorem perform_failed {S K : Type} (gate : V → C → Option String)
    (st : OpenState S K C O V ι P) (r : S × Act C O ι K) (msg : String)
    (h : (perform gate st r).turn = .failed msg) :
    r.2 = .fail msg ∨ ∃ v c, gate v c = some msg := by
  rcases r with ⟨s, a⟩
  cases a with
  | ret => exact nomatch h
  | goto k => exact nomatch h
  | out o k => exact nomatch h
  | make i c k => exact nomatch h
  | fail m => exact Or.inl (congrArg Act.fail (Turn.failed.inj h))
  | ask p c k =>
      cases hgate : gate (st.views p) c with
      | none =>
          rw [perform_ask gate st s p c k hgate] at h
          exact nomatch h
      | some m =>
          simp only [perform, hgate] at h
          exact Or.inr ⟨_, c, hgate.trans (congrArg some (Turn.failed.inj h))⟩

/-- A run fails where a piece of code does, or at a call on a part. -/
theorem Reach.failed [Inhabited V] {gate : V → C → Option String}
    {allow : Open M → Move C V ι P → Prop} {st : Open M} (h : Reach gate allow st) (msg : String)
    (hfailed : st.turn = .failed msg) :
    (∃ before r, Reach gate allow before ∧ before.turn.isFailed = false ∧
      Runs allow before r ∧ r.2 = .fail msg) ∨ ∃ v c, gate v c = some msg := by
  cases h with
  | init => exact nomatch hfailed
  | step before _ reached next =>
      cases next with
      | call c turn _ ok =>
          refine (perform_failed gate _ _ msg hfailed).imp (fun hr => ?_) id
          exact ⟨before, _, reached, by rw [turn]; rfl, .call c turn ok, hr⟩
      | said p i o turn kind ok =>
          refine (perform_failed gate _ _ msg hfailed).imp (fun hr => ?_) id
          exact ⟨before, _, reached, by rw [turn]; rfl, .said p i o turn kind ok, hr⟩
      | reply who k rest turn top ok =>
          refine (perform_failed gate _ _ msg hfailed).imp (fun hr => ?_) id
          exact ⟨before, _, reached, by rw [turn]; rfl,
            .resume k (Or.inl ⟨turn, ok, who, rest, top⟩), hr⟩
      | view p v turn _ => exact absurd (turn.symm.trans hfailed) (by simp only [reduceCtorEq,
          not_false_eq_true])
      | run k turn ok =>
          refine (perform_failed gate _ _ msg hfailed).imp (fun hr => ?_) id
          exact ⟨before, _, reached, by rw [turn]; rfl, .resume k (Or.inr ⟨turn, ok⟩), hr⟩

/-- What is on the stack was there, or has just been put there. -/
theorem mem_perform_stack {S K : Type} (gate : V → C → Option String)
    (st : OpenState S K C O V ι P) (r : S × Act C O ι K) (f : Callee × K)
    (h : f ∈ (perform gate st r).stack) : f ∈ st.stack ∨ r.2.waits = some f.2 := by
  rcases r with ⟨s, a⟩
  cases a with
  | ret => exact Or.inl h
  | goto k => exact Or.inl h
  | out o k =>
      rcases List.mem_cons.mp h with rfl | hold
      · exact Or.inr rfl
      · exact Or.inl hold
  | ask p c k =>
      rcases perform_ask_cases gate st s p c k with ⟨msg, hfail⟩ | hask
      · rw [hfail] at h
        exact Or.inl h
      · rw [hask] at h
        rcases List.mem_cons.mp h with rfl | hold
        · exact Or.inr rfl
        · exact Or.inl hold
  | make i c k =>
      rcases List.mem_cons.mp h with rfl | hold
      · exact Or.inr rfl
      · exact Or.inl hold
  | fail msg => exact Or.inl h

/-- The state after a piece of code is the one it ends with. -/
@[simp] theorem perform_state {S K : Type} (gate : V → C → Option String)
    (st : OpenState S K C O V ι P) (r : S × Act C O ι K) : (perform gate st r).state = r.1 := by
  rcases r with ⟨s, a⟩
  cases a with
  | ask p c k =>
      rcases perform_ask_cases gate st s p c k with ⟨msg, hfail⟩ | hask
      · rw [hfail]
      · rw [hask]
  | _ => rfl

/-- The points at which calls are waited for are all on the stack that is
    reached. -/
theorem Reach.waiting [Inhabited V] {gate : V → C → Option String}
    {allow : Open M → Move C V ι P → Prop} (ok : M.Point → Prop)
    (hruns : ∀ st r, Reach gate allow st → Runs allow st r → ∀ k, r.2.waits = some k → ok k)
    (st : Open M) (h : Reach gate allow st) : ∀ f ∈ st.stack, ok f.2 := by
  refine Reach.induct (fun st => ∀ f ∈ st.stack, ok f.2) (fun f hf => (by cases hf)) ?_ st h
  intro st st' hreach ih hstep f hf
  cases hstep with
  | call c turn _ hok =>
      exact (mem_perform_stack gate _ _ f hf).elim (ih f)
        (hruns st _ hreach (.call c turn hok) f.2)
  | said p i o turn kind hok =>
      exact (mem_perform_stack gate _ _ f hf).elim (ih f)
        (hruns st _ hreach (.said p i o turn kind hok) f.2)
  | reply who k rest turn top hok =>
      refine (mem_perform_stack gate _ _ f hf).elim (fun hold => ih f ?_)
        (hruns st _ hreach (.resume k (Or.inl ⟨turn, hok, who, rest, top⟩)) f.2)
      rw [top]
      exact List.mem_cons_of_mem _ hold
  | view p v turn _ => exact ih f hf
  | run k turn hok =>
      exact (mem_perform_stack gate _ _ f hf).elim (ih f)
        (hruns st _ hreach (.resume k (Or.inr ⟨turn, hok⟩)) f.2)

/-- Let the component go on by itself for some steps. -/
def advance (gate : V → C → Option String) : Nat → Open M → Open M
  | 0, st => st
  | n + 1, st => match st.turn with
    | .run k => advance gate n (perform gate st (M.resume st.views st.state k))
    | _ => st

@[simp] theorem advance_zero (gate : V → C → Option String) (st : Open M) :
    advance gate 0 st = st := rfl

theorem advance_succ (gate : V → C → Option String) (n : Nat) (st : Open M) (k : M.Point)
    (h : st.turn = .run k) :
    advance gate (n + 1) st = advance gate n (perform gate st (M.resume st.views st.state k)) := by
  simp only [advance, h]

/-! Runs that are given as a list of moves, for runs on concrete input. -/

section Play

variable [DecidableEq ι] (gate : V → C → Option String)
  (allow : Open M → Move C V ι P → Prop) [∀ st m, Decidable (allow st m)]

/-- Make one given move, or fail if it cannot be made under the rules. -/
def move? (st : Open M) (m : Move C V ι P) : Option (Open M) :=
  if allow st m then
    match st.turn, m with
    | .run k, .run => some (perform gate st (M.resume st.views st.state k))
    | .outside, .call c =>
        if gate (M.look st.state) c = none then
          some (perform gate { st with log := .call c :: st.log }
            (M.call st.views st.state c))
        else none
    | .outside, .said p i o =>
        if st.kinds[p]? = some i then
          some (perform gate { st with log := .said p i o :: st.log }
            (M.said st.views st.state p i o))
        else none
    | .outside, .reply => match st.stack with
      | [] => none
      | (_, k) :: rest =>
          some (perform gate { st with stack := rest } (M.resume st.views st.state k))
    | .outside, .view p v => some { st with views := fun q => if q = p then v else st.views q }
    | _, _ => none
  else none

/-- A given move is a step. -/
theorem step_of_move? (st st' : Open M) (m : Move C V ι P)
    (h : move? gate allow st m = some st') : Step gate allow st st' := by
  unfold move? at h
  by_cases hok : allow st m
  · rw [if_pos hok] at h
    split at h
    -- one case for each move, in which the test is the premise of its rule
    · next k hturn =>
        rw [Option.some.injEq] at h
        exact h ▸ Step.run st k hturn hok
    · next c hturn =>
        by_cases hgate : gate (M.look st.state) c = none
        · rw [if_pos hgate, Option.some.injEq] at h
          exact h ▸ Step.call st c hturn hgate hok
        · rw [if_neg hgate] at h
          exact absurd h (by simp only [reduceCtorEq, not_false_eq_true])
    · next p i o hturn =>
        by_cases hkind : st.kinds[p]? = some i
        · rw [if_pos hkind, Option.some.injEq] at h
          exact h ▸ Step.said st p i o hturn hkind hok
        · rw [if_neg hkind] at h
          exact absurd h (by simp only [reduceCtorEq, not_false_eq_true])
    · next hturn =>
        split at h
        · exact absurd h (by simp only [reduceCtorEq, not_false_eq_true])
        · next who k rest hstack =>
            rw [Option.some.injEq] at h
            exact h ▸ Step.reply st who k rest hturn hstack hok
    · next p v hturn =>
        rw [Option.some.injEq] at h
        exact h ▸ Step.view st p v hturn hok
    · exact absurd h (by simp only [reduceCtorEq, not_false_eq_true])
  · rw [if_neg hok] at h
    exact absurd h (by simp only [reduceCtorEq, not_false_eq_true])

/-- Make the moves of a list, one after the other. -/
def play (st : Open M) : List (Move C V ι P) → Option (Open M)
  | [] => some st
  | m :: ms => (move? gate allow st m).bind fun st' => play st' ms

/-- What can be played is a run. -/
theorem later_of_play (ms : List (Move C V ι P)) (st st' : Open M)
    (h : play gate allow st ms = some st') : Later gate allow st st' := by
  induction ms generalizing st with
  | nil =>
      simp only [play, Option.some.injEq] at h
      exact h ▸ Relation.ReflTransGen.refl
  | cons m ms ih =>
      simp only [play, Option.bind_eq_some_iff] at h
      rcases h with ⟨next, hm, hrest⟩
      exact Relation.ReflTransGen.head (step_of_move? gate allow st next m hm) (ih next hrest)

/-- What can be played is reachable. -/
theorem reach_of_play [Inhabited V] (ms : List (Move C V ι P)) (st st' : Open M)
    (hst : Reach gate allow st) (h : play gate allow st ms = some st') :
    Reach gate allow st' :=
  hst.later (later_of_play gate allow ms st st' h)

/-- A property that can be evaluated at the end of a playable list of moves
    holds of some reachable state. -/
theorem exists_reach_of_play [Inhabited V] (ms : List (Move C V ι P))
    (test : Open M → Bool) (h : (play gate allow (init M) ms).any test = true) :
    ∃ st, Reach gate allow st ∧ test st = true := by
  rw [Option.any_eq_true] at h
  rcases h with ⟨st, hplay, htest⟩
  exact ⟨st, reach_of_play gate allow ms _ _ Reach.init hplay, htest⟩

end Play

end Open

end Theory

end RxCppUniq
