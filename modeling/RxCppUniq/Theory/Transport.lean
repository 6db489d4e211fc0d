import RxCppUniq.Theory.Open
import RxCppUniq.Theory.Simulation
import RxCppUniq.Theory.Total

/-!
# Runs of Machines that are Simulated

A machine that stands for another has, towards any environment, the runs of the
other: whatever was called in a run of the one, there is a run of the other in
which the same was called. Where the machine gives up, it was allowed to.

What the environment does may depend on all that was called before. It is held
to a rule on the log, which has to be one of the protocol.

When all the environment does is to return, a measure of the other machine tells
that it comes to an end.

## Main definitions

* `Protocol.stage`: The stage that the calls of a log have led to.
* `LogRules`: The rules of an environment that is held to a rule on the log.
* `Returns`: The rules of one that only returns.
* `converse`: A run that is given as a list of moves of the environment.
* `Shows`: What the environment may have seen.
* `Less`, `toDo`: How much is left to do when everything returns.
* `Simulation.Linked`: Two runs are at the same place.

## Theorems

* `Simulation.reach`: A run of the machine is one of the other machine, or the
  machine has given up.
* `Simulation.reach_back`: The other way round.
* `Simulation.shows`, `Simulation.shows_back`: The environment sees the same.
* `Simulation.settles`: When the environment returns, everything returns.
-/

namespace RxCppUniq

namespace Theory

open Machine

variable {C O V : Type} {Q : Empty → Type} [Inhabited V]

/-- The stage that the calls of a log have led to. -/
def Protocol.stage (proto : Protocol C O) : List (Note C O Empty Q) → proto.Stage
  | [] => proto.start
  | .call _ :: log => proto.stage log
  | .out o :: log => proto.after (proto.stage log) o
  | .ask _ _ :: log => proto.stage log
  | .said _ _ _ :: log => proto.stage log

/-- The environment calls as a rule on the log allows. -/
def LogRules (allow : List (Note C O Empty Q) → C → Prop) {A : Machine C O V Q} (st : Open A) :
    Move C V Empty Q → Prop
  | .call c => allow st.log c
  | .said _ _ _ => True
  | .reply => True
  | .view _ _ => False
  | .run => True

instance {A : Machine C O V Q} {allow : List (Note C O Empty Q) → C → Prop}
    [∀ log c, Decidable (allow log c)] (st : Open A) (m : Move C V Empty Q) :
    Decidable (LogRules allow st m) :=
  match m with
  | .call c => inferInstanceAs (Decidable (allow st.log c))
  | .said _ _ _ => inferInstanceAs (Decidable True)
  | .reply => inferInstanceAs (Decidable True)
  | .view _ _ => inferInstanceAs (Decidable False)
  | .run => inferInstanceAs (Decidable True)

/-- The environment only returns. -/
def Returns {A : Machine C O V Q} (_ : Open A) : Move C V Empty Q → Prop
  | .call _ => False
  | .said _ _ _ => False
  | .reply => True
  | .view _ _ => False
  | .run => True

/-- The environment may have the turn when this was called, so many of the
    machine's calls have not returned, and this is read of the machine. -/
def Shows (gate : V → C → Option String) (allow : List (Note C O Empty Q) → C → Prop)
    (A : Machine C O V Q) (log : List (Note C O Empty Q)) (depth : Nat) (view : V) : Prop :=
  ∃ st : Open A, Open.Reach gate (LogRules allow) st ∧ st.turn = .outside ∧ st.log = log ∧
    st.stack.length = depth ∧ A.look st.state = view

section Runs

variable {A : Machine C O V Q} {gate : V → C → Option String}
  {rules : Open A → Move C V Empty Q → Prop}

omit [Inhabited V] in
/-- Where the code was does not matter for what it does. -/
theorem perform_run (st : Open A) (s : A.State) (t : Turn A.Point) (r : Outcome A) :
    Open.perform gate { st with state := s, turn := t } r = Open.perform gate st r := by
  rcases r with ⟨s', a⟩
  cases a with
  | ask p c k =>
      cases hgate : gate (st.views p) c <;> simp only [Open.perform, hgate]
  | _ => rfl

/-- A machine goes on by itself until it stops. -/
theorem Machine.Runs.later {r v : Outcome A} (h : Runs A r v) (hrun : ∀ st, rules st .run)
    (st : Open A) (hviews : st.views = noViews) :
    Open.Later gate rules (Open.perform gate st r) (Open.perform gate st v) := by
  induction h with
  | stop r hstop => exact .refl
  | go s k v _ ih =>
      refine .head ?_ ih
      have hstep : Open.Step gate rules (Open.perform gate st (s, .goto k))
          (Open.perform gate (Open.perform gate st (s, .goto k)) (A.resume st.views s k)) :=
        .run _ k rfl (hrun _)
      have hsame : Open.perform gate (Open.perform gate st (s, .goto k)) (A.resume st.views s k) =
          Open.perform gate st (A.resume noViews s k) := by
        rw [Open.perform_goto, perform_run, hviews]
      rwa [hsame] at hstep

omit [Inhabited V] in
/-- Some steps of it are a run. -/
theorem later_of_advance (hrun : ∀ st, rules st .run) (n : Nat) (st : Open A) :
    Open.Later gate rules st (Open.advance gate n st) := by
  induction n generalizing st with
  | zero => exact .refl
  | succ n ih =>
      cases hturn : st.turn with
      | run k =>
          rw [Open.advance_succ gate n st k hturn]
          exact .head (.run st k hturn (hrun st)) (ih _)
      | outside =>
          rw [Open.advance]
          simp only [hturn]
          exact .refl
      | failed msg =>
          rw [Open.advance]
          simp only [hturn]
          exact .refl

section Converse

variable (gate) (allow : List (Note C O Empty Q) → C → Prop) [∀ log c, Decidable (allow log c)]

/-- The environment makes the moves of a list, and after each the machine goes on
    for some steps. -/
def converse (n : Nat) (st : Open A) : List (Move C V Empty Q) → Option (Open A)
  | [] => some st
  | m :: ms =>
      (Open.move? gate (LogRules allow) st m).bind fun next =>
        converse n (Open.advance gate n next) ms

omit [Inhabited V] in
theorem later_of_converse (n : Nat) (ms : List (Move C V Empty Q)) (st st' : Open A)
    (h : converse gate allow n st ms = some st') : Open.Later gate (LogRules allow) st st' := by
  induction ms generalizing st with
  | nil =>
      rw [converse, Option.some.injEq] at h
      exact h ▸ .refl
  | cons m ms ih =>
      rw [converse, Option.bind_eq_some_iff] at h
      rcases h with ⟨next, hm, hrest⟩
      refine .head (Open.step_of_move? gate (LogRules allow) st next m hm) ?_
      exact (later_of_advance (fun _ => trivial) n next).trans (ih _ hrest)

/-- What can be evaluated at the end of such a run holds of a reachable state. -/
theorem exists_reach_of_converse (n : Nat) (ms : List (Move C V Empty Q)) (test : Open A → Bool)
    (h : (converse gate allow n (Open.init A) ms).any test = true) :
    ∃ st : Open A, Open.Reach gate (LogRules allow) st ∧ test st = true := by
  rw [Option.any_eq_true] at h
  rcases h with ⟨st, hmoves, htest⟩
  exact ⟨st, Open.Reach.later .init (later_of_converse gate allow n ms _ _ hmoves), htest⟩

end Converse

/-- The environment calls a machine. -/
theorem Machine.step_call (st : Open A) (c : C) (hturn : st.turn = .outside)
    (hviews : st.views = noViews) (hgate : gate (A.look st.state) c = none)
    (hok : rules st (.call c)) :
    Open.Step gate rules st
      (Open.perform gate { st with log := .call c :: st.log } (A.call noViews st.state c)) := by
  have hstep : Open.Step gate rules st _ := .call st c hturn hgate hok
  have hcode : A.call st.views st.state c = A.call noViews st.state c := by rw [hviews]
  rwa [hcode] at hstep

/-- The environment returns to it. -/
theorem Machine.step_reply (st : Open A) (k : A.Point) (rest : List (Callee × A.Point))
    (hturn : st.turn = .outside) (hstack : st.stack = (.env, k) :: rest)
    (hviews : st.views = noViews) (hok : rules st .reply) :
    Open.Step gate rules st
      (Open.perform gate { st with stack := rest } (A.resume noViews st.state k)) := by
  have hstep : Open.Step gate rules st _ := .reply st .env k rest hturn hstack hok
  have hcode : A.resume st.views st.state k = A.resume noViews st.state k := by rw [hviews]
  rwa [hcode] at hstep

omit [Inhabited V] in
theorem log_perform (st : Open A) (r : Outcome A) :
    (Open.perform gate st r).log = st.log ∨
      (∃ o, (Open.perform gate st r).log = .out o :: st.log) ∨
        ∃ p c, (Open.perform gate st r).log = .ask p c :: st.log := by
  rcases r with ⟨s, a⟩
  cases a with
  | ret => exact Or.inl rfl
  | goto k => exact Or.inl rfl
  | out o k => exact Or.inr (Or.inl ⟨o, rfl⟩)
  | make i c k => exact Or.inr (Or.inr ⟨_, c, rfl⟩)
  | fail msg => exact Or.inl rfl
  | ask p c k =>
      rcases Open.perform_ask_cases gate st s p c k with ⟨msg, hfail⟩ | hask
      · rw [hfail]
        exact Or.inl rfl
      · rw [hask]
        exact Or.inr (Or.inr ⟨p, c, rfl⟩)

omit [Inhabited V] in
/-- What is true of the log stays true while the environment returns, if no
    call of the machine changes it. -/
theorem log_of_returns {P : List (Note C O Empty Q) → Prop} {st st' : Open A}
    (hout : ∀ o log, P log → P (.out o :: log)) (hask : ∀ p c log, P log → P (.ask p c :: log))
    (h : Open.Later gate Returns st st') (hlog : P st.log) : P st'.log := by
  have hperform : ∀ (st : Open A) r, P st.log → P (Open.perform gate st r).log := by
    intro st r hst
    rcases @log_perform _ _ _ _ _ gate st r with hsame | ⟨o, ho⟩ | ⟨p, c, hc⟩
    · rwa [hsame]
    · rw [ho]
      exact hout o _ hst
    · rw [hc]
      exact hask p c _ hst
  induction h with
  | refl => exact hlog
  | tail _ hstep ih =>
      cases hstep with
      | call c turn open_ ok => exact ok.elim
      | said p i o turn kind ok => cases i
      | reply who k rest turn top ok => exact hperform _ _ ih
      | view p v turn ok => exact ok.elim
      | run k turn ok => exact hperform _ _ ih

section Measure

variable (size : A.State → Nat) (weight : A.Point → Nat)

/-- A piece of code has stopped, and less is left to do than so much. -/
inductive Less (n : Nat) : Outcome A → Prop where
  | ret (s : A.State) (h : size s < n) : Less n (s, .ret)
  | out (s : A.State) (o : O) (k : A.Point) (h : size s + weight k < n) : Less n (s, .out o k)

/-- How much is left to do when all calls of the environment return. -/
def toDo (st : Open A) : Nat :=
  size st.state + total (fun f => weight f.2) st.stack

variable {size weight}

omit [Inhabited V] in
/-- A call returns. -/
theorem Less.toDo_lt {st : Open A} {l : A.Point} {rest : List (Callee × A.Point)} {v : Outcome A}
    (hstack : st.stack = (.env, l) :: rest) (h : Less size weight (size st.state + weight l) v) :
    toDo size weight (Open.perform gate { st with stack := rest } v) < toDo size weight st := by
  rw [toDo, toDo, hstack, total_cons]
  cases h with
  | ret s h =>
      simp only [Open.perform_ret]
      omega
  | out s o k h =>
      simp only [Open.perform_out, total_cons]
      omega

end Measure

end Runs

namespace Simulation

variable {A B : Machine C O V Q} {gate : V → C → Option String} {proto : Protocol C O}
  {allow : List (Note C O Empty Q) → C → Prop}

/-- The two runs are at the same place, where the environment goes on. -/
structure Linked (S : Simulation gate proto A B) (st : Open A) (st' : Open B)
    (ks : List (A.Point × B.Point)) : Prop where
  turn : st.turn = .outside
  turn' : st'.turn = .outside
  log : st'.log = st.log
  rel : S.Rel (proto.stage st.log) st.state st'.state ks
  stack : st.stack = ks.map fun x => (.env, x.1)
  stack' : st'.stack = ks.map fun x => (.env, x.2)
  views : st.views = noViews
  views' : st'.views = noViews

/-- A run of the other machine has come to where this one is. In between calls
    it is about to do the same, and nothing is said of it when this one has
    given up. -/
inductive Follows (S : Simulation gate proto A B) (reached : Open B → Prop) (st : Open A) :
    Prop where
  | outside (st' : Open B) (ks : List (A.Point × B.Point)) (hreached : reached st')
      (hlinked : S.Linked st st' ks)
  | inside (k : A.Point) (mid : Open B) (r : Outcome B) (ks : List (A.Point × B.Point))
      (hturn : st.turn = .run k) (hlog : mid.log = st.log)
      (hreached : reached (Open.perform gate mid r))
      (hanswers : Answers proto S.Rel (proto.stage st.log) ks (st.state, .goto k) r)
      (hstack : st.stack = ks.map fun x => (.env, x.1))
      (hstack' : mid.stack = ks.map fun x => (.env, x.2)) (hviews : st.views = noViews)
      (hviews' : mid.views = noViews)
  | failed (msg : String) (hturn : st.turn = .failed msg)
      (hbroken : proto.broken (proto.stage st.log))

/-- A piece of code of the machine is followed. -/
theorem follows_perform {S : Simulation gate proto A B} {reached : Open B → Prop} {st : Open A}
    {m : Open B} {r : Outcome A} {r' : Outcome B} {ks : List (A.Point × B.Point)}
    (hlog : m.log = st.log) (hreached : reached (Open.perform gate m r'))
    (hlater : ∀ v, Runs B r' v → reached (Open.perform gate m v))
    (hanswers : Answers proto S.Rel (proto.stage st.log) ks r r')
    (hstack : st.stack = ks.map fun x => (.env, x.1))
    (hstack' : m.stack = ks.map fun x => (.env, x.2)) (hviews : st.views = noViews)
    (hviews' : m.views = noViews) : S.Follows reached (Open.perform gate st r) := by
  -- a jump leads to the next piece of code, everything else is matched already
  by_cases hgo : r.2.isGoto = true
  · rcases r with ⟨s, a⟩
    cases a with
    | goto k =>
        exact .inside k m r' ks rfl hlog hreached hanswers hstack hstack' hviews hviews'
    | _ => cases hgo
  · rw [Bool.not_eq_true] at hgo
    rcases hanswers with ⟨v, v', hv, hv', hmatch⟩
    rw [hv.eq_of_stop hgo] at hmatch
    have hend := hlater v' hv'
    cases hmatch with
    | ret a b hrel =>
        exact .outside _ ks hend ⟨rfl, rfl, hlog, hrel, hstack, hstack', hviews, hviews'⟩
    | out a b o k l hrel =>
        refine .outside _ ((k, l) :: ks) hend ⟨rfl, rfl, ?_, hrel, ?_, ?_, hviews, hviews'⟩
        · exact congrArg _ hlog
        · exact congrArg _ hstack
        · exact congrArg _ hstack'
    | fail a msg v hbroken => exact .failed msg rfl hbroken

/-- A run of the machine is one of the other machine, or the machine has given
    up. -/
theorem reach (S : Simulation gate proto A B)
    (hallow : ∀ log c, allow log c → proto.allow (proto.stage log) c) (st : Open A)
    (h : Open.Reach gate (LogRules allow) st) :
    S.Follows (Open.Reach gate (LogRules allow)) st := by
  have hlater : ∀ (mid : Open B) (r v : Outcome B), mid.views = noViews →
      Open.Reach gate (LogRules allow) (Open.perform gate mid r) → Runs B r v →
      Open.Reach gate (LogRules allow) (Open.perform gate mid v) :=
    fun mid r v hviews hreach hruns => hreach.later (hruns.later (fun _ => trivial) mid hviews)
  induction h with
  | init => exact .outside _ [] .init ⟨rfl, rfl, rfl, S.start, rfl, rfl, rfl, rfl⟩
  | step st next _ hstep ih =>
      cases hstep with
      | call c turn open_ ok =>
          cases ih with
          | inside k mid r ks hturn => cases turn.symm.trans hturn
          | failed msg hturn => cases turn.symm.trans hturn
          | outside st' ks hreached hlinked =>
              rcases hlinked with ⟨-, hturn', hlog, hrel, hstack, hstack', hviews, hviews'⟩
              have hlook := S.look _ _ _ _ hrel
              have hanswers := S.call _ _ _ ks c hrel (hallow _ c ok) open_
              have hok : allow st'.log c := by
                rw [hlog]
                exact ok
              have hgate : gate (B.look st'.state) c = none := by
                rw [← hlook]
                exact open_
              have hreached' : Open.Reach gate (LogRules allow) _ := .step _ _ hreached
                (Machine.step_call st' c hturn' hviews' hgate hok)
              have hcode : A.call st.views st.state c = A.call noViews st.state c := by rw [hviews]
              rw [hcode]
              exact follows_perform (congrArg _ hlog) hreached'
                (fun v hv => hlater _ _ v hviews' hreached' hv) hanswers hstack hstack'
                    hviews hviews'
      | said p i o turn kind ok => cases i
      | reply who k rest turn top ok =>
          cases ih with
          | inside k mid r ks hturn => cases turn.symm.trans hturn
          | failed msg hturn => cases turn.symm.trans hturn
          | outside st' ks hreached hlinked =>
              rcases hlinked with ⟨-, hturn', hlog, hrel, hstack, hstack', hviews, hviews'⟩
              rw [top] at hstack
              cases ks with
              | nil => cases hstack
              | cons x ks =>
                  rcases x with ⟨k', l⟩
                  rw [List.map_cons, List.cons.injEq, Prod.mk.injEq] at hstack
                  rcases hstack with ⟨⟨-, rfl⟩, hrest⟩
                  have hanswers := S.resume _ _ _ k l ks hrel
                  have hreached' : Open.Reach gate (LogRules allow) _ := .step _ _ hreached
                    (Machine.step_reply st' l _ hturn' hstack' hviews' trivial)
                  have hcode : A.resume st.views st.state k = A.resume noViews st.state k := by
                    rw [hviews]
                  rw [hcode]
                  exact follows_perform (m := { st' with stack := ks.map fun x => (.env, x.2) })
                    hlog hreached'
                    (fun v hv => hlater _ _ v hviews' hreached' hv) hanswers hrest rfl
                        hviews hviews'
      | view p v turn ok => exact ok.elim
      | run k turn ok =>
          cases ih with
          | outside st' ks hreached hlinked => cases turn.symm.trans hlinked.turn
          | failed msg hturn => cases turn.symm.trans hturn
          -- inside a piece of code the other machine has finished, and waits
          | inside k' mid r ks hturn hlog hreached hanswers hstack hstack' hviews hviews' =>
              rw [turn, Turn.run.injEq] at hturn
              subst hturn
              rcases hanswers with ⟨v, v', hv, hv', hmatch⟩
              have hcode : A.resume st.views st.state k = A.resume noViews st.state k := by
                rw [hviews]
              rw [hcode]
              exact follows_perform hlog hreached (fun v hv => hlater _ _ v hviews' hreached hv)
                ⟨v, v', hv.of_goto, hv', hmatch⟩ hstack hstack' hviews hviews'

/-- The machine has given up, as it may. -/
def GaveUp (proto : Protocol C O) (st : Open A) : Prop :=
  st.turn.isFailed = true ∧ proto.broken (proto.stage st.log)

/-- A run of the machine has come to where one of the other machine is, or has
    given up on the way. -/
inductive Followed (S : Simulation gate proto A B) (reached : Open A → Prop) (st' : Open B) :
    Prop where
  | outside (st : Open A) (ks : List (A.Point × B.Point)) (hreached : reached st)
      (hlinked : S.Linked st st' ks)
  | inside (l : B.Point) (mid : Open A) (r : Outcome A) (ks : List (A.Point × B.Point))
      (hturn : st'.turn = .run l) (hlog : mid.log = st'.log)
      (hreached : reached (Open.perform gate mid r))
      (hanswers : Answers proto S.Rel (proto.stage st'.log) ks r (st'.state, .goto l))
      (hstack : mid.stack = ks.map fun x => (.env, x.1))
      (hstack' : st'.stack = ks.map fun x => (.env, x.2)) (hviews : mid.views = noViews)
      (hviews' : st'.views = noViews)
  | failed (st : Open A) (hreached : reached st) (hgave : GaveUp proto st)
      (hlog : st.log <:+ st'.log)

/-- A piece of code of the other machine is followed. -/
theorem followed_perform {S : Simulation gate proto A B} {reached : Open A → Prop} {m : Open A}
    {st' : Open B} {r : Outcome A} {r' : Outcome B} {ks : List (A.Point × B.Point)}
    (hlog : m.log = st'.log) (hreached : reached (Open.perform gate m r))
    (hlater : ∀ v, Runs A r v → reached (Open.perform gate m v))
    (hanswers : Answers proto S.Rel (proto.stage st'.log) ks r r')
    (hstack : m.stack = ks.map fun x => (.env, x.1))
    (hstack' : st'.stack = ks.map fun x => (.env, x.2)) (hviews : m.views = noViews)
    (hviews' : st'.views = noViews) : S.Followed reached (Open.perform gate st' r') := by
  -- a jump leads to the next piece of code, everything else is matched already
  by_cases hgo : r'.2.isGoto = true
  · rcases r' with ⟨s, a⟩
    cases a with
    | goto l =>
        exact .inside l m r ks rfl hlog hreached hanswers hstack hstack' hviews hviews'
    | _ => cases hgo
  · rw [Bool.not_eq_true] at hgo
    rcases hanswers with ⟨v, v', hv, hv', hmatch⟩
    rw [hv'.eq_of_stop hgo] at hmatch
    have hend := hlater v hv
    cases hmatch with
    | ret a b hrel =>
        refine .outside _ ks hend ⟨rfl, rfl, hlog.symm, ?_, hstack, hstack', hviews, hviews'⟩
        change S.Rel (proto.stage m.log) a b ks
        rw [hlog]
        exact hrel
    | out a b o k l hrel =>
        refine .outside _ ((k, l) :: ks) hend ⟨rfl, rfl, ?_, ?_, ?_, ?_, hviews, hviews'⟩
        · exact congrArg _ hlog.symm
        · change S.Rel (proto.after (proto.stage m.log) o) a b _
          rw [hlog]
          exact hrel
        · exact congrArg _ hstack
        · exact congrArg _ hstack'
    | fail a msg v hbroken =>
        refine .failed _ hend ⟨rfl, ?_⟩ ?_
        · change proto.broken (proto.stage m.log)
          rw [hlog]
          exact hbroken
        · change m.log <:+ _
          rw [hlog]
          exact Open.perform_log_suffix gate st' _

/-- A run of the other machine is one of the machine, or the machine has given
    up on the way. -/
theorem reach_back (S : Simulation gate proto A B)
    (hallow : ∀ log c, allow log c → proto.allow (proto.stage log) c) (st' : Open B)
    (h : Open.Reach gate (LogRules allow) st') :
    S.Followed (Open.Reach gate (LogRules allow)) st' := by
  have hlater : ∀ (mid : Open A) (r v : Outcome A), mid.views = noViews →
      Open.Reach gate (LogRules allow) (Open.perform gate mid r) → Runs A r v →
      Open.Reach gate (LogRules allow) (Open.perform gate mid v) :=
    fun mid r v hviews hreach hruns => hreach.later (hruns.later (fun _ => trivial) mid hviews)
  induction h with
  | init => exact .outside _ [] .init ⟨rfl, rfl, rfl, S.start, rfl, rfl, rfl, rfl⟩
  | step st' next _ hstep ih =>
      cases ih with
      -- what has given up stays behind while the other machine goes on
      | failed st hreached hgave hlog =>
          exact .failed st hreached hgave (hlog.trans hstep.log_suffix)
      | outside st ks hreached hlinked =>
          rcases hlinked with ⟨hturn, hturn', hlog, hrel, hstack, hstack', hviews, hviews'⟩
          cases hstep with
          | said p i o turn kind ok => cases i
          | view p v turn ok => exact ok.elim
          | run k turn ok => cases turn.symm.trans hturn'
          | call c turn open_ ok =>
              have hlook := S.look _ _ _ _ hrel
              have hok : allow st.log c := by
                rw [← hlog]
                exact ok
              have hgate : gate (A.look st.state) c = none := by
                rw [hlook]
                exact open_
              have hanswers := S.call _ _ _ ks c hrel (hallow _ c hok) hgate
              have hreached' : Open.Reach gate (LogRules allow) _ := .step _ _ hreached
                (Machine.step_call st c hturn hviews hgate hok)
              have hcode : B.call st'.views st'.state c = B.call noViews st'.state c := by
                rw [hviews']
              rw [hcode]
              refine followed_perform (congrArg _ hlog.symm) hreached'
                (fun v hv => hlater _ _ v hviews hreached' hv) ?_ hstack hstack' hviews hviews'
              change Answers proto S.Rel (proto.stage st'.log) ks _ _
              rw [hlog]
              exact hanswers
          | reply who l rest turn top ok =>
              rw [top] at hstack'
              cases ks with
              | nil => cases hstack'
              | cons x ks =>
                  rcases x with ⟨k, l'⟩
                  rw [List.map_cons, List.cons.injEq, Prod.mk.injEq] at hstack'
                  rcases hstack' with ⟨⟨-, rfl⟩, hrest⟩
                  have hanswers := S.resume _ _ _ k l ks hrel
                  have hreached' : Open.Reach gate (LogRules allow) _ := .step _ _ hreached
                    (Machine.step_reply st k _ hturn hstack hviews trivial)
                  have hcode : B.resume st'.views st'.state l = B.resume noViews st'.state l := by
                    rw [hviews']
                  rw [hcode]
                  refine followed_perform (m := { st with stack := ks.map fun x => (.env, x.1) })
                    hlog.symm hreached'
                    (fun v hv => hlater _ _ v hviews hreached' hv) ?_ rfl hrest hviews hviews'
                  change Answers proto S.Rel (proto.stage st'.log) ks _ _
                  rw [hlog]
                  exact hanswers
      | inside l mid r ks hturn hlog hreached hanswers hstack hstack' hviews hviews' =>
          cases hstep with
          | said p i o turn kind ok => cases i
          | view p v turn ok => exact ok.elim
          | call c turn open_ ok => cases turn.symm.trans hturn
          | reply who l' rest turn top ok => cases turn.symm.trans hturn
          | run l' turn ok =>
              rw [turn, Turn.run.injEq] at hturn
              subst hturn
              rcases hanswers with ⟨v, v', hv, hv', hmatch⟩
              have hcode : B.resume st'.views st'.state l' = B.resume noViews st'.state l' := by
                rw [hviews']
              rw [hcode]
              exact followed_perform hlog hreached (fun v hv => hlater _ _ v hviews hreached hv)
                ⟨v, v', hv, hv'.of_goto, hmatch⟩ hstack hstack' hviews hviews'

/-- What the environment has seen of a machine that has stood for another one, it
    may have seen of the other one. -/
theorem shows (S : Simulation gate proto A B)
    (hallow : ∀ log c, allow log c → proto.allow (proto.stage log) c)
    {log : List (Note C O Empty Q)} {depth : Nat} {view : V}
        (h : Shows gate allow A log depth view) :
    Shows gate allow B log depth view := by
  rcases h with ⟨st, hreach, hturn, hlog, hdepth, hview⟩
  cases S.reach hallow st hreach with
  | inside k m r ks hturn' => cases hturn.symm.trans hturn'
  | failed msg hturn' => cases hturn.symm.trans hturn'
  | outside st' ks hreached hlinked =>
      refine ⟨st', hreached, hlinked.turn', hlinked.log.trans hlog, ?_, ?_⟩
      · rw [← hdepth, hlinked.stack, hlinked.stack', List.length_map, List.length_map]
      · rw [← hview]
        exact (S.look _ _ _ _ hlinked.rel).symm

/-- The other way round, unless the machine has given up on the way. -/
theorem shows_back (S : Simulation gate proto A B)
    (hallow : ∀ log c, allow log c → proto.allow (proto.stage log) c)
    {log : List (Note C O Empty Q)} {depth : Nat} {view : V}
        (h : Shows gate allow B log depth view) :
    Shows gate allow A log depth view ∨
      ∃ st : Open A, Open.Reach gate (LogRules allow) st ∧ GaveUp proto st ∧ st.log <:+ log := by
  rcases h with ⟨st', hreach, hturn, hlog, hdepth, hview⟩
  cases S.reach_back hallow st' hreach with
  | inside l m r ks hturn' => cases hturn.symm.trans hturn'
  | failed st hreached hgave hsuffix => exact Or.inr ⟨st, hreached, hgave, hlog ▸ hsuffix⟩
  | outside st ks hreached hlinked =>
      refine Or.inl ⟨st, hreached, hlinked.turn, hlinked.log.symm.trans hlog, ?_, ?_⟩
      · rw [← hdepth, hlinked.stack, hlinked.stack', List.length_map, List.length_map]
      · rw [← hview]
        exact S.look _ _ _ _ hlinked.rel

/-- A run in which the environment only returns is one under its rules. -/
theorem reach_returns {st st2 : Open A} (h : Open.Reach gate (LogRules allow) st)
    (hlater : Open.Later gate Returns st st2) : Open.Reach gate (LogRules allow) st2 := by
  induction hlater with
  | refl => exact h
  | tail _ hstep ih =>
      refine .step _ _ ih (hstep.mono fun st m hok => ?_)
      cases m with
      | call c => exact hok.elim
      | said p i o => trivial
      | reply => trivial
      | view p v => exact hok.elim
      | run => trivial

/-- One call of the environment returns, in both runs. -/
theorem return_once {S : Simulation gate proto A B} {st : Open A} {st' : Open B} {k : A.Point}
    {l : B.Point} {ks : List (A.Point × B.Point)} (h : S.Linked st st' ((k, l) :: ks)) :
    ∃ st2, Open.Later gate Returns st st2 ∧
      ((∃ v' ks2, Runs B (B.resume noViews st'.state l) v' ∧
          Open.Later gate Returns st'
            (Open.perform gate { st' with stack := ks.map fun x => (.env, x.2) } v') ∧
          S.Linked st2 (Open.perform gate { st' with stack := ks.map fun x => (.env, x.2) } v')
            ks2) ∨ GaveUp proto st2) := by
  rcases h with ⟨hturn, hturn', hlog, hrel, hstack, hstack', hviews, hviews'⟩
  rcases S.resume _ _ _ k l ks hrel with ⟨v, v', hv, hv', hmatch⟩
  have hreply : Open.Step gate Returns st _ :=
    Machine.step_reply st k _ hturn hstack hviews trivial
  have hlater : Open.Later gate Returns _ _ :=
    hv.later (fun _ => trivial) { st with stack := ks.map fun x => (.env, x.1) } hviews
  have hreply' : Open.Step gate Returns st' _ :=
    Machine.step_reply st' l _ hturn' hstack' hviews' trivial
  have hlater' : Open.Later gate Returns _ _ :=
    hv'.later (fun _ => trivial) { st' with stack := ks.map fun x => (.env, x.2) } hviews'
  refine ⟨_, .head hreply hlater, ?_⟩
  cases hmatch with
  | ret a b hrel' =>
      exact Or.inl ⟨_, ks, hv', .head hreply' hlater', rfl, rfl, hlog, hrel', rfl, rfl, hviews,
        hviews'⟩
  | out a b o k' l' hrel' =>
      exact Or.inl ⟨_, (k', l') :: ks, hv', .head hreply' hlater', rfl, rfl, congrArg _ hlog, hrel',
        rfl, rfl, hviews, hviews'⟩
  | fail a msg v' hbroken => exact Or.inr ⟨rfl, hbroken⟩

/-- When the environment returns, everything returns, if every return leaves
    less to do in the other machine. The induction is on what is left to do. -/
theorem settles_of_linked {S : Simulation gate proto A B} {size : B.State → Nat}
    {weight : B.Point → Nat} (hless : ∀ s l v, Runs B (B.resume noViews s l) v →
      Less size weight (size s + weight l) v) (n : Nat)
    {st : Open A} {st' : Open B} {ks : List (A.Point × B.Point)} (h : S.Linked st st' ks)
    (hreach : Open.Reach gate (LogRules allow) st') (hn : toDo size weight st' = n) :
    ∃ st2, Open.Later gate Returns st st2 ∧
      (st2.turn = .outside ∧ st2.stack = [] ∨ GaveUp proto st2) := by
  induction n using Nat.strongRecOn generalizing st st' ks with
  | _ n ih =>
      cases ks with
      | nil => exact ⟨st, .refl, Or.inl ⟨h.turn, h.stack⟩⟩
      | cons x ks =>
          rcases x with ⟨k, l⟩
          rcases return_once h with ⟨st1, hlater, ⟨v', ks', hv', hlater', hlinked⟩ | hgave⟩
          · have hdown : toDo size weight (Open.perform gate
                { st' with stack := ks.map fun x => (.env, x.2) } v') < toDo size weight st' :=
              (hless st'.state l v' hv').toDo_lt h.stack'
            rcases ih _ (by rw [← hn]; exact hdown) hlinked (reach_returns hreach hlater') rfl
              with ⟨st2, hlater2, hend⟩
            exact ⟨st2, hlater.trans hlater2, hend⟩
          · exact ⟨st1, hlater, Or.inr hgave⟩

/-- Wherever the machine is, everything returns. -/
theorem settles (S : Simulation gate proto A B)
    (hallow : ∀ log c, allow log c → proto.allow (proto.stage log) c) (size : B.State → Nat)
    (weight : B.Point → Nat) (hless : ∀ s l v, Runs B (B.resume noViews s l) v →
      Less size weight (size s + weight l) v) (st : Open A)
    (h : Open.Reach gate (LogRules allow) st) :
    ∃ st2, Open.Later gate Returns st st2 ∧
      (st2.turn = .outside ∧ st2.stack = [] ∨ GaveUp proto st2) := by
  cases S.reach hallow st h with
  | outside st' ks hreached hlinked => exact settles_of_linked hless _ hlinked hreached rfl
  | failed msg hturn hbroken => exact ⟨st, .refl, Or.inr ⟨by rw [hturn]; rfl, hbroken⟩⟩
  | inside k mid r ks hturn hlog hreached hanswers hstack hstack' hviews hviews' =>
      -- the machine goes on by itself first
      rcases hanswers with ⟨v, v', hv, hv', hmatch⟩
      have hst : st = Open.perform gate st (st.state, .goto k) := by
        rw [Open.perform_goto, ← hturn]
      have hlater : Open.Later gate Returns _ _ := hv.later (fun _ => trivial) st hviews
      rw [← hst] at hlater
      have hfollows := S.reach hallow _ (reach_returns h hlater)
      generalize hnext : Open.perform gate st v = next at hlater hfollows
      cases hfollows with
      | outside st' ks hreached hlinked =>
          rcases settles_of_linked hless _ hlinked hreached rfl with ⟨st2, hlater2, hend⟩
          exact ⟨st2, hlater.trans hlater2, hend⟩
      | failed msg hturn' hbroken =>
          exact ⟨next, hlater, Or.inr ⟨by rw [hturn']; rfl, hbroken⟩⟩
      | inside k' _ _ _ hturn' =>
          subst hnext
          rcases v with ⟨s, a⟩
          cases hmatch <;> cases hturn'

end Simulation

end Theory

end RxCppUniq
