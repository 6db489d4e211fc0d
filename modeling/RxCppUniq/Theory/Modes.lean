import RxCppUniq.Theory.Open

/-!
# Invariants with Modes

The rule for code of which only one copy may be under way: a loop that is
guarded by a flag, or the rest of a method that is run for the last event
only. A frame says what holds when control comes back to a point, but not how
often the point is on the stack. A mode does: it fixes what is executed and
which of the tracked points are on the stack, in order. Points that are not
tracked may be there any number of times, and nothing depends on them.

After a failed check nothing is left of a mode. What is safe still holds, and
is about the log alone.

## Main definitions

* `Act.turn`, `Act.push`: Whose turn it is after an act, and the tracked
  points on the stack.
* `Open.Modes`: The modes and what holds in each.
* `Open.Modes.Owes`: What a piece of code owes.
* `Open.Modes.Holds`: The invariant.

## Theorems

* `Open.Modes.holds_reach`: If every piece of code brings about one of the
  modes, every reachable state is in one.
-/

namespace RxCppUniq

namespace Theory

variable {C O V ι : Type} {P : ι → Type}

/-- Whose turn it is after an act, if no call is refused. -/
@[simp] def Act.turn {K : Type} : Act C O ι K → Turn K
  | .ret => .outside
  | .goto k => .run k
  | .out _ _ => .outside
  | .ask _ _ _ => .outside
  | .make _ _ _ => .outside
  | .fail msg => .failed msg

/-- The tracked points on the stack after an act. -/
@[simp] def Act.push {K : Type} (tracked : K → Bool) (frames : List K) : Act C O ι K → List K
  | .ret => frames
  | .goto _ => frames
  | .out _ k => if tracked k then k :: frames else frames
  | .ask _ _ k => if tracked k then k :: frames else frames
  | .make _ _ k => if tracked k then k :: frames else frames
  | .fail _ => frames

namespace Open

/-- The modes of a component and what holds in each. -/
structure Modes (M : Component C O V ι P) where
  Mode : Type
  tracked : M.Point → Bool
  turn : Mode → Turn M.Point
  frames : Mode → List M.Point
  Facts : Mode → M.State → List ι → List (Note C O ι P) → Prop
  Safe : List ι → List (Note C O ι P) → Prop

namespace Modes

variable {M : Component C O V ι P} (modes : Modes M)

/-- The tracked points on a stack, the innermost first. -/
def stacked (stack : List (Callee × M.Point)) : List M.Point :=
  (stack.map Prod.snd).filter modes.tracked

@[simp] theorem stacked_nil : modes.stacked [] = [] := rfl

theorem stacked_cons (who : Callee) (k : M.Point) (stack : List (Callee × M.Point)) :
    modes.stacked ((who, k) :: stack) =
      if modes.tracked k then k :: modes.stacked stack else modes.stacked stack := by
  rw [stacked, List.map_cons, List.filter_cons, stacked]

/-- What a piece of code owes that ends with `r`, where `frames` are the
    tracked points on the stack and `log` has the call that ran it. -/
def Owes (frames : List M.Point) (kinds : List ι) (log : List (Note C O ι P))
    (r : M.State × Act C O ι M.Point) : Prop :=
  modes.Safe kinds log ∧ ((∃ msg, r.2 = .fail msg) ∨
    ∃ m, modes.turn m = r.2.turn ∧ modes.frames m = r.2.push modes.tracked frames ∧
      modes.Facts m r.1 (r.2.kinds kinds) (r.2.log kinds log))

/-- The state is in a mode. -/
structure Fits (m : modes.Mode) (st : Open M) : Prop where
  turn : st.turn = modes.turn m
  frames : modes.stacked st.stack = modes.frames m
  facts : modes.Facts m st.state st.kinds st.log

/-- The invariant: some mode, or what is safe after a failed check. -/
def Holds (st : Open M) : Prop :=
  (∃ m, modes.Fits m st) ∨ st.turn.isFailed = true ∧ modes.Safe st.kinds st.log

/-- Carrying out what a piece of code owes brings the invariant about. -/
theorem Owes.holds (gate : V → C → Option String) (st : Open M)
    (r : M.State × Act C O ι M.Point)
    (h : modes.Owes (modes.stacked st.stack) st.kinds st.log r) :
    modes.Holds (perform gate st r) := by
  rcases r with ⟨s, a⟩
  rcases h with ⟨hsafe, hfail | ⟨m, hturn, hframes, hfacts⟩⟩
  · rcases hfail with ⟨msg, rfl⟩
    exact Or.inr ⟨rfl, hsafe⟩
  · cases a with
    | ret => exact Or.inl ⟨m, hturn.symm, hframes.symm, hfacts⟩
    | goto k => exact Or.inl ⟨m, hturn.symm, hframes.symm, hfacts⟩
    | out o k =>
        refine Or.inl ⟨m, hturn.symm, ?_, hfacts⟩
        rw [hframes]
        exact modes.stacked_cons _ k st.stack
    | ask p c k =>
        rcases perform_ask_cases gate st s p c k with ⟨msg, hrefused⟩ | hask
        · rw [hrefused]
          exact Or.inr ⟨rfl, hsafe⟩
        · rw [hask]
          refine Or.inl ⟨m, hturn.symm, ?_, hfacts⟩
          rw [hframes]
          exact modes.stacked_cons _ k st.stack
    | make i c k =>
        refine Or.inl ⟨m, hturn.symm, ?_, hfacts⟩
        rw [hframes]
        exact modes.stacked_cons _ k st.stack
    | fail msg => exact Or.inr ⟨rfl, hsafe⟩

/-- If every piece of code brings about one of the modes, every reachable
    state is in one. -/
theorem holds_reach [Inhabited V] (gate : V → C → Option String)
    (allow : Open M → Move C V ι P → Prop)
    (hinit : ∃ m, modes.Fits m (Open.init M))
    (hcall : ∀ (st : Open M) (m : modes.Mode) (c : C), modes.Fits m st → st.turn = .outside →
      allow st (.call c) →
      modes.Owes (modes.frames m) st.kinds (.call c :: st.log) (M.call st.views st.state c))
    (hsaid : ∀ (st : Open M) (m : modes.Mode) (p : Nat) (i : ι) (o : P i), modes.Fits m st →
      st.turn = .outside → allow st (.said p i o) → st.kinds[p]? = some i →
      modes.Owes (modes.frames m) st.kinds (.said p i o :: st.log)
        (M.said st.views st.state p i o))
    (hreturn : ∀ (st : Open M) (m : modes.Mode) (k : M.Point), modes.Fits m st →
      st.turn = .outside → allow st .reply → st.log ≠ [] → modes.tracked k = false →
      modes.Owes (modes.frames m) st.kinds st.log (M.resume st.views st.state k))
    (hback : ∀ (st : Open M) (m : modes.Mode) (who : Callee) (k : M.Point)
      (rest : List (Callee × M.Point)) (frames : List M.Point), modes.Fits m st →
      st.turn = .outside → allow st .reply → st.stack = (who, k) :: rest →
      modes.tracked k = true → modes.frames m = k :: frames →
      modes.Owes frames st.kinds st.log (M.resume st.views st.state k))
    (hrun : ∀ (st : Open M) (m : modes.Mode) (k : M.Point), modes.Fits m st →
      st.turn = .run k → allow st .run →
      modes.Owes (modes.frames m) st.kinds st.log (M.resume st.views st.state k))
    (st : Open M) (h : Reach gate allow st) : modes.Holds st := by
  refine Reach.induct modes.Holds (Or.inl hinit) ?_ st h
  intro st st' hreach hst hstep
  rcases hst with ⟨m, hm⟩ | ⟨hfailed, -⟩
  · cases hstep with
    | call c turn _ ok =>
        exact Owes.holds modes gate _ _ (hm.frames ▸ hcall st m c hm turn ok)
    | said p i o turn kind ok =>
        exact Owes.holds modes gate _ _ (hm.frames ▸ hsaid st m p i o hm turn ok kind)
    | reply who k rest turn top ok =>
        refine Owes.holds modes gate { st with stack := rest } _ ?_
        have hframes := hm.frames
        rw [top, stacked_cons] at hframes
        -- only at a tracked point does a mode wait for the call to return
        by_cases hk : modes.tracked k = true
        · rw [if_pos hk] at hframes
          exact hback st m who k rest _ hm turn ok top hk hframes.symm
        · rw [if_neg hk] at hframes
          have hne : st.log ≠ [] := by
            intro hlog
            rw [(hreach.idle st hlog).1] at top
            exact absurd top (by simp)
          exact hframes ▸ hreturn st m k hm turn ok hne (by simpa using hk)
    | view p v turn ok => exact Or.inl ⟨m, hm.turn, hm.frames, hm.facts⟩
    | run k turn ok =>
        exact Owes.holds modes gate st _ (hm.frames ▸ hrun st m k hm turn ok)
  · cases hstep with
    | call c turn _ _ => exact absurd hfailed (by simp [turn])
    | said p i o turn _ _ => exact absurd hfailed (by simp [turn])
    | reply who k rest turn _ _ => exact absurd hfailed (by simp [turn])
    | view p v turn _ => exact absurd hfailed (by simp [turn])
    | run k turn _ => exact absurd hfailed (by simp [turn])

end Modes

end Open

end Theory

end RxCppUniq
