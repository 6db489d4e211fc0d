import RxCppUniq.Theory.Simulation

/-!
# Parts that are Simulated

Rules for following a component with its parts from step to step, where all
that is known of a part is the machine it stands for. A call of the part is
carried out in as many steps as it takes, and ends as it does for that machine.

## Main definitions

* `Nest.Leads`: The whole goes on to where something holds.
* `Nest.At`: A part stands for a machine in a state.
* `Nest.Moves`: Only one part has gone on.

## Theorems

* `Nest.Leads.run_part`: A part goes on until it returns or calls.
* `Nest.Leads.ask_go`, `Nest.Leads.ask_ret`, `Nest.Leads.ask_out`: A call of a
  part.
* `Nest.Leads.part_go`, `Nest.Leads.part_ret`, `Nest.Leads.part_out`: A call by
  a part returns to it.
-/

namespace RxCppUniq

namespace Theory

open Machine

namespace Nest

variable {C O V ι : Type} {P : ι → Type} {Q : Empty → Type} [Inhabited V]
  {gate : V → C → Option String} {M : Component C O V ι P} {N : (i : ι) → Machine C (P i) V Q}

section Put

omit [Inhabited V]

@[simp] theorem put_state (st : State M N) (p : Nat) (u : Part N) :
    (st.put p u).state = st.state := rfl

@[simp] theorem put_stack (st : State M N) (p : Nat) (u : Part N) :
    (st.put p u).stack = st.stack := rfl

@[simp] theorem put_log (st : State M N) (p : Nat) (u : Part N) : (st.put p u).log = st.log := rfl

@[simp] theorem put_parts (st : State M N) (p : Nat) (u : Part N) :
    (st.put p u).parts = st.parts.set p u := rfl

@[simp] theorem put_put (st : State M N) (p : Nat) (u u' : Part N) :
    (st.put p u).put p u' = st.put p u' := by
  rw [State.put, State.put, State.put, List.set_set]

theorem get_put {st : State M N} {p : Nat} (h : p < st.parts.length) (u : Part N) :
    (st.put p u).parts[p]? = some u := by
  rw [put_parts, List.getElem?_set_self h]

/-- A part that goes on is replaced anyway. -/
theorem answer_put (st : State M N) (p : Nat) (u : Part N) (i : ι) (waiting : List (N i).Point)
    (r : (N i).State × Act C (P i) Empty (N i).Point) :
    answer (st.put p u) p i waiting r = answer st p i waiting r := by
  rcases r with ⟨s, a⟩
  cases a <;> simp only [answer, put_put, put_stack, put_log]

end Put

/-- The whole goes on until it returns, calls or gives up, and then this
    holds. -/
def Leads (gate : V → C → Option String) (Inv : Result M N → Prop) (r : Result M N) : Prop :=
  ∃ v, Runs (nest gate M N) r v ∧ Inv v

/-- A part is of kind `i`, and stands for the machine `B` in the state `b` and
    with calls that return at the points `ls`. -/
def Holds {i : ι} {B : Machine C (P i) V Q} {proto : Protocol C (P i)}
    (S : Simulation gate proto (N i) B) (q : proto.Stage) (b : B.State) (ls : List B.Point)
    (u : Part N) : Prop :=
  ∃ s ks, u = { kind := i, state := s, waiting := ks.map Prod.fst } ∧ S.Rel q s b ks ∧
    ks.map Prod.snd = ls

/-- The part with number `p` does. -/
def At {i : ι} {B : Machine C (P i) V Q} {proto : Protocol C (P i)}
    (S : Simulation gate proto (N i) B) (q : proto.Stage) (b : B.State) (ls : List B.Point)
    (p : Nat) (parts : List (Part N)) : Prop :=
  ∃ u, parts[p]? = some u ∧ Holds S q b ls u

/-- Only the part `p` has gone on, and the stack is this one. -/
structure Moves (p : Nat) (stack : List (Frame M.Point)) (st st' : State M N) : Prop where
  state : st'.state = st.state
  stack_eq : st'.stack = stack
  others : ∀ p', p' ≠ p → st'.parts[p']? = st.parts[p']?
  length : st'.parts.length = st.parts.length

section At

variable {i : ι} {B : Machine C (P i) V Q} {proto : Protocol C (P i)}
  {S : Simulation gate proto (N i) B} {q : proto.Stage} {b : B.State} {ls : List B.Point}
  {p p' : Nat} {stack : List (Frame M.Point)} {st st' : State M N}

theorem At.lt {parts : List (Part N)} (h : At S q b ls p parts) : p < parts.length := by
  rcases h with ⟨u, hget, -⟩
  exact (List.getElem?_eq_some_iff.mp hget).1

/-- What is read of a part is what is read of the machine it stands for. -/
theorem At.view (h : At S q b ls p st.parts) : st.views p = B.look b := by
  rcases h with ⟨u, hget, s, ks, rfl, hrel, -⟩
  rw [State.views, hget]
  exact S.look q s b ks hrel

/-- Other parts stay where they are. -/
theorem Moves.at (h : Moves p stack st st') (hne : p' ≠ p) (hat : At S q b ls p' st.parts) :
    At S q b ls p' st'.parts := by
  rcases hat with ⟨u, hget, hu⟩
  exact ⟨u, (h.others p' hne).trans hget, hu⟩

/-- A part that is created changes no other. -/
theorem At.append {parts : List (Part N)} (h : At S q b ls p parts) (new : List (Part N)) :
    At S q b ls p (parts ++ new) := by
  rcases h with ⟨u, hget, hu⟩
  refine ⟨u, ?_, hu⟩
  rw [List.getElem?_append_left (List.getElem?_eq_some_iff.mp hget).1]
  exact hget

/-- A part that is created starts where the machine does that it stands for. -/
theorem At.create (S : Simulation gate proto (N i) B) (parts : List (Part N)) :
    At S proto.start B.start [] parts.length
      (parts ++ [{ kind := i, state := (N i).start, waiting := [] }]) := by
  refine ⟨_, ?_, (N i).start, [], rfl, S.start, rfl⟩
  rw [List.getElem?_append_right (Nat.le_refl _), Nat.sub_self]
  rfl

end At

namespace Leads

variable {Inv : Result M N → Prop} {st : State M N}

theorem stop {r : Result M N} (hstop : r.2.isGoto = false) (h : Inv r) : Leads gate Inv r :=
  ⟨r, Runs.stop (A := nest gate M N) r hstop, h⟩

theorem go {k : Point C ι M.Point P} (h : Leads gate Inv (step gate st k)) :
    Leads gate Inv (st, .goto k) := by
  rcases h with ⟨v, hruns, hinv⟩
  exact ⟨v, .go st k v hruns, hinv⟩

/-- What the whole is led to is its answer. -/
theorem answers {proto : Protocol C O} {B : Machine C O V Q}
    {Rel : proto.Stage → State M N → B.State → List (Point C ι M.Point P × B.Point) → Prop}
    {q : proto.Stage} {ks : List (Point C ι M.Point P × B.Point)} {r : Result M N}
    {r' : Machine.Outcome B}
    (h : Leads gate (fun v => ∃ v', Runs B r' v' ∧
      Match proto (A := nest gate M N) (B := B) Rel q ks v v') r) :
    Answers proto (A := nest gate M N) (B := B) Rel q ks r r' := by
  rcases h with ⟨v, hv, v', hv', hmatch⟩
  exact ⟨v, v', hv, hv', hmatch⟩

/-- A method returns. -/
theorem ret {m : M.State} (h : Leads gate Inv (back { st with state := m })) :
    Leads gate Inv (perform gate st (m, .ret)) :=
  h

/-- A call returns to the component. -/
theorem own {k : M.Point} {rest : List (Frame M.Point)} (hstack : st.stack = .own k :: rest)
    (h : Leads gate Inv
      (perform gate { st with stack := rest } (M.resume st.views st.state k))) :
    Leads gate Inv (back st) := by
  rw [back, hstack]
  exact .go h

/-- A part is created. -/
theorem make {i : ι} {c : C} {k : M.Point} {m : M.State}
    (h : Leads gate Inv ({ st with
      state := m
      parts := st.parts ++ [{ kind := i, state := (N i).start, waiting := [] }]
      stack := .own k :: st.stack
      log := .ask st.parts.length c :: st.log }, .goto (.ask st.parts.length c))) :
    Leads gate Inv (perform gate st (m, .make i c k)) :=
  h

/-- The component returns to the environment. -/
theorem env {rest : List (Frame M.Point)} (hstack : st.stack = .env :: rest)
    (h : Inv ({ st with stack := rest }, .ret)) : Leads gate Inv (back st) := by
  rw [back, hstack]
  exact .stop rfl h

/-- A part goes on until it returns, calls or gives up. The induction is on its
    own run. -/
theorem run_part {p : Nat} {i : ι} {waiting : List (N i).Point} {r v : Machine.Outcome (N i)}
    (hp : p < st.parts.length) (hruns : Runs (N i) r v)
    (h : Leads gate Inv (answer st p i waiting v)) : Leads gate Inv (answer st p i waiting r) := by
  induction hruns with
  | stop r _ => exact h
  | go s k v _ ih =>
      refine .go ?_
      have hget := get_put hp { kind := i, state := s, waiting := k :: waiting }
      rw [step]
      simp only [hget]
      rw [answer_put]
      exact ih h

section Parts

variable {i : ι} {B : Machine C (P i) V Q} {proto : Protocol C (P i)}
  {S : Simulation gate proto (N i) B} {q : proto.Stage} {ks : List ((N i).Point × B.Point)}
  {r : Machine.Outcome (N i)} {r' : Machine.Outcome B} {b' : B.State} {p : Nat}

/-- The part is replaced by one that has gone on. -/
theorem moves_put (hp : p < st.parts.length) {u : Part N} {ls : List B.Point}
    (hu : Holds S q b' ls u) (stack : List (Frame M.Point)) (log : List (Note C O ι P)) :
    Moves p stack st { st.put p u with stack := stack, log := log } ∧
      At S q b' ls p (st.put p u).parts := by
  refine ⟨⟨rfl, rfl, ?_, List.length_set⟩, u, get_put hp u, hu⟩
  intro p' hne
  exact List.getElem?_set_ne (Ne.symm hne)

/-- The part returns. -/
theorem answer_ret (h : Answers proto S.Rel q ks r r') (hruns : Runs B r' (b', .ret))
    (hp : p < st.parts.length) (hfail : proto.broken q → ∀ st msg, Inv (st, .fail msg))
    (hnext : ∀ st', Moves p st.stack st st' → At S q b' (ks.map Prod.snd) p st'.parts →
      Leads gate Inv (back st')) :
    Leads gate Inv (answer st p i (ks.map Prod.fst) r) := by
  rcases h.of_runs hruns with ⟨v, hv, hmatch⟩
  refine run_part hp hv ?_
  cases hmatch with
  | ret a _ hrel =>
      rcases moves_put hp ⟨a, ks, rfl, hrel, rfl⟩ st.stack st.log with ⟨hmoves, hat⟩
      exact hnext _ hmoves hat
  | fail a msg _ hbroken => exact .stop rfl (hfail hbroken _ msg)

/-- The part calls the component. -/
theorem answer_out {o : P i} {l : B.Point} (h : Answers proto S.Rel q ks r r')
    (hruns : Runs B r' (b', .out o l)) (hp : p < st.parts.length)
    (hfail : proto.broken q → ∀ st msg, Inv (st, .fail msg))
    (hnext : ∀ st', Moves p (.part p :: st.stack) st st' →
      At S (proto.after q o) b' (l :: ks.map Prod.snd) p st'.parts →
      Leads gate Inv (perform gate st' (M.said st'.views st'.state p i o))) :
    Leads gate Inv (answer st p i (ks.map Prod.fst) r) := by
  rcases h.of_runs hruns with ⟨v, hv, hmatch⟩
  refine run_part hp hv ?_
  cases hmatch with
  | out a _ _ k _ hrel =>
      rcases moves_put hp ⟨a, (k, l) :: ks, rfl, hrel, rfl⟩ (.part p :: st.stack)
        (.said p i o :: st.log) with ⟨hmoves, hat⟩
      exact .go (hnext _ hmoves hat)
  | fail a msg _ hbroken => exact .stop rfl (hfail hbroken _ msg)

/-- The part does what the machine does that it stands for, whatever that is. -/
theorem answer_cases (h : Answers proto S.Rel q ks r r') (hp : p < st.parts.length)
    (hfail : proto.broken q → ∀ st msg, Inv (st, .fail msg))
    (hret : ∀ b' st', Runs B r' (b', .ret) → Moves p st.stack st st' →
      At S q b' (ks.map Prod.snd) p st'.parts → Leads gate Inv (back st'))
    (hout : ∀ b' o l st', Runs B r' (b', .out o l) → Moves p (.part p :: st.stack) st st' →
      At S (proto.after q o) b' (l :: ks.map Prod.snd) p st'.parts →
      Leads gate Inv (perform gate st' (M.said st'.views st'.state p i o))) :
    Leads gate Inv (answer st p i (ks.map Prod.fst) r) := by
  rcases h with ⟨v, v', hv, hv', hmatch⟩
  have hsame : Answers proto S.Rel q ks r r' := ⟨v, v', hv, hv', hmatch⟩
  cases hmatch with
  | ret a b hrel => exact answer_ret hsame hv' hp hfail fun st' => hret b st' hv'
  | out a b o k l hrel => exact answer_out hsame hv' hp hfail fun st' => hout b o l st' hv'
  | fail a msg v' hbroken => exact run_part hp hv (.stop rfl (hfail hbroken _ msg))

variable {b : B.State} {ls : List B.Point} {c : C} {l : B.Point}

/-- The component calls a part. -/
theorem ask_go (h : At S q b ls p st.parts) (hallow : proto.allow q c)
    (hgate : gate (B.look b) c = none)
    (hnext : ∀ ks r, ks.map Prod.snd = ls → Answers proto S.Rel q ks r (B.call noViews b c) →
      Leads gate Inv (answer st p i (ks.map Prod.fst) r)) :
    Leads gate Inv (st, .goto (.ask p c)) := by
  rcases h with ⟨u, hget, s, ks, rfl, hrel, rfl⟩
  rw [← S.look q s b ks hrel] at hgate
  refine .go ?_
  rw [step]
  simp only [hget]
  exact hnext ks _ rfl (S.call q s b ks c hrel hallow hgate)

/-- It goes through the gate. -/
theorem ask {k : M.Point} {m : M.State} (h : At S q b ls p st.parts)
    (hgate : gate (B.look b) c = none)
    (hnext : Leads gate Inv ({ st with
      state := m, stack := .own k :: st.stack, log := .ask p c :: st.log }, .goto (.ask p c))) :
    Leads gate Inv (perform gate st (m, .ask p c k)) := by
  rw [perform]
  simp only [h.view, hgate]
  exact hnext

/-- It calls a part, which returns. -/
theorem ask_ret (h : At S q b ls p st.parts) (hallow : proto.allow q c)
    (hgate : gate (B.look b) c = none) (hruns : Runs B (B.call noViews b c) (b', .ret))
    (hfail : proto.broken q → ∀ st msg, Inv (st, .fail msg))
    (hnext : ∀ st', Moves p st.stack st st' → At S q b' ls p st'.parts →
      Leads gate Inv (back st')) :
    Leads gate Inv (st, .goto (.ask p c)) := by
  refine ask_go h hallow hgate fun ks r hls hans => ?_
  subst hls
  exact answer_ret hans hruns h.lt hfail hnext

/-- It calls a part, which calls it. -/
theorem ask_out {o : P i} (h : At S q b ls p st.parts) (hallow : proto.allow q c)
    (hgate : gate (B.look b) c = none) (hruns : Runs B (B.call noViews b c) (b', .out o l))
    (hfail : proto.broken q → ∀ st msg, Inv (st, .fail msg))
    (hnext : ∀ st', Moves p (.part p :: st.stack) st st' →
      At S (proto.after q o) b' (l :: ls) p st'.parts →
      Leads gate Inv (perform gate st' (M.said st'.views st'.state p i o))) :
    Leads gate Inv (st, .goto (.ask p c)) := by
  refine ask_go h hallow hgate fun ks r hls hans => ?_
  subst hls
  exact answer_out hans hruns h.lt hfail hnext

/-- A call by a part returns to it. -/
theorem part_go {rest : List (Frame M.Point)} (hstack : st.stack = .part p :: rest)
    (h : At S q b (l :: ls) p st.parts)
    (hnext : ∀ ks r, ks.map Prod.snd = ls → Answers proto S.Rel q ks r (B.resume noViews b l) →
      Leads gate Inv (answer { st with stack := rest } p i (ks.map Prod.fst) r)) :
    Leads gate Inv (back st) := by
  rcases h with ⟨u, hget, s, ks, rfl, hrel, hls⟩
  cases ks with
  | nil => cases hls
  | cons x ks =>
      rcases x with ⟨k, l'⟩
      rw [List.map_cons, List.cons.injEq] at hls
      rcases hls with ⟨rfl, rfl⟩
      rw [back, hstack]
      refine .go ?_
      rw [step]
      simp only [hget, List.map_cons]
      exact hnext ks _ rfl (S.resume q s b k l' ks hrel)

/-- The part returns itself. -/
theorem part_ret {rest : List (Frame M.Point)} (hstack : st.stack = .part p :: rest)
    (h : At S q b (l :: ls) p st.parts) (hruns : Runs B (B.resume noViews b l) (b', .ret))
    (hfail : proto.broken q → ∀ st msg, Inv (st, .fail msg))
    (hnext : ∀ st', Moves p rest st st' → At S q b' ls p st'.parts → Leads gate Inv (back st')) :
    Leads gate Inv (back st) := by
  refine part_go hstack h fun ks r hls hans => ?_
  subst hls
  refine answer_ret hans hruns h.lt hfail fun st' hmoves hat => hnext st' ?_ hat
  exact ⟨hmoves.state, hmoves.stack_eq, hmoves.others, hmoves.length⟩

/-- The part calls the component again. -/
theorem part_out {rest : List (Frame M.Point)} {o : P i} {l' : B.Point}
    (hstack : st.stack = .part p :: rest) (h : At S q b (l :: ls) p st.parts)
    (hruns : Runs B (B.resume noViews b l) (b', .out o l'))
    (hfail : proto.broken q → ∀ st msg, Inv (st, .fail msg))
    (hnext : ∀ st', Moves p st.stack st st' → At S (proto.after q o) b' (l' :: ls) p st'.parts →
      Leads gate Inv (perform gate st' (M.said st'.views st'.state p i o))) :
    Leads gate Inv (back st) := by
  refine part_go hstack h fun ks r hls hans => ?_
  subst hls
  refine answer_out hans hruns h.lt hfail fun st' hmoves hat => hnext st' ?_ hat
  exact ⟨hmoves.state, hmoves.stack_eq.trans hstack.symm, hmoves.others, hmoves.length⟩

end Parts

end Leads

end Nest

end Theory

end RxCppUniq
