import RxCppUniq.Theory.Open

/-!
# Invariants with Frames

The rule for proving an invariant of a component that is called while it
waits. What holds between two pieces of its code is said in two parts: the
core, which is about the state and the log, and for each program point a
frame, which is what the code at that point relies on when control comes back
to it. Every point on the stack has its frame, so a piece of code has to keep
not only the core but also the frames of all others that are waiting.

A run may end with a failed check, after which the core need not hold. What
still does is called safe, and is about the log alone.

## Main definitions

* `Open.Spec`: A core, frames, and what is safe.
* `Open.Spec.Keeps`: What a piece of code owes.
* `Open.Spec.Holds`: The invariant.

## Theorems

* `Open.Spec.holds_reach`: If every piece of code keeps its part, the
  invariant holds of every reachable state.
* `Open.Spec.Holds.resumed`: A point finds what it relies on.
-/

namespace RxCppUniq

namespace Theory

variable {C O V ι : Type} {P : ι → Type}

namespace Open

/-- An invariant in parts. -/
structure Spec (M : Component C O V ι P) where
  Core : M.State → List ι → List (Note C O ι P) → Prop
  Frame : M.Point → M.State → List ι → List (Note C O ι P) → Prop
  Safe : List ι → List (Note C O ι P) → Prop

namespace Spec

variable {M : Component C O V ι P} (spec : Spec M)

/-- What a piece of code owes that was run in the state `s` with the log
    `before`, after the call that ran it was noted in `log`. -/
structure Keeps (s : M.State) (kinds : List ι) (before log : List (Note C O ι P))
    (r : M.State × Act C O ι M.Point) : Prop where
  safe : spec.Safe kinds log
  core : (∃ msg, r.2 = .fail msg) ∨ spec.Core r.1 (r.2.kinds kinds) (r.2.log kinds log)
  next : ∀ k, r.2.next = some k → spec.Frame k r.1 (r.2.kinds kinds) (r.2.log kinds log)
  frame : ∀ k, (∀ msg, r.2 ≠ .fail msg) → spec.Frame k s kinds before →
    spec.Frame k r.1 (r.2.kinds kinds) (r.2.log kinds log)

/-- The invariant: the core and all frames, or what is safe. -/
def Holds (st : Open M) : Prop :=
  (st.turn.isFailed = false ∧ spec.Core st.state st.kinds st.log ∧
      (∀ f ∈ st.stack, spec.Frame f.2 st.state st.kinds st.log) ∧
      ∀ k, st.turn = .run k → spec.Frame k st.state st.kinds st.log) ∨
    (st.turn.isFailed = true ∧ spec.Safe st.kinds st.log)

/-- As long as no check has failed, the core holds. -/
theorem Holds.core {spec : Spec M} {st : Open M} (h : spec.Holds st)
    (hrun : st.turn.isFailed = false) : spec.Core st.state st.kinds st.log := by
  rcases h with ⟨-, hcore, -⟩ | ⟨hfailed, -⟩
  · exact hcore
  · exact absurd (hrun.symm.trans hfailed) Bool.false_ne_true

/-- What a point relies on holds where the code goes on at it. -/
theorem Holds.resumed {spec : Spec M} {allow : Open M → Move C V ι P → Prop} {st : Open M}
    {k : M.Point} (h : spec.Holds st) (hresumes : Resumes allow st k) :
    spec.Frame k st.state st.kinds st.log := by
  rcases h with ⟨-, -, hframes, hturn⟩ | ⟨hfailed, -⟩
  · rcases hresumes with ⟨-, -, who, rest, htop⟩ | ⟨hrun, -⟩
    · exact hframes (who, k) (htop ▸ List.mem_cons_self)
    · exact hturn k hrun
  · exact absurd (hresumes.isFailed.symm.trans hfailed) Bool.false_ne_true

/-- Carrying out what a piece of code owes brings the invariant about. -/
theorem Keeps.holds (gate : V → C → Option String) (st : Open M) (s : M.State)
    (before : List (Note C O ι P)) (r : M.State × Act C O ι M.Point)
    (h : spec.Keeps s st.kinds before st.log r)
    (hstack : ∀ f ∈ st.stack, spec.Frame f.2 s st.kinds before) :
    spec.Holds (perform gate st r) := by
  rcases r with ⟨s', a⟩
  have hpush (k : M.Point) (who : Callee) (hk : a.next = some k) (hne : ∀ msg, a ≠ .fail msg) :
      ∀ f ∈ (who, k) :: st.stack, spec.Frame f.2 s' (a.kinds st.kinds) (a.log st.kinds st.log) := by
    intro f hf
    rcases List.mem_cons.mp hf with rfl | hf
    · exact h.next k hk
    · exact h.frame f.2 hne (hstack f hf)
  -- only what calls outside has a point to come back to
  cases a with
  | ret =>
      refine Or.inl ⟨rfl, h.core.resolve_left (by simp), fun f hf => ?_, fun k hk => ?_⟩
      · exact h.frame f.2 (by simp) (hstack f hf)
      · exact absurd hk (by simp [perform])
  | goto k =>
      refine Or.inl ⟨rfl, h.core.resolve_left (by simp), fun f hf => ?_, fun k' hk => ?_⟩
      · exact h.frame f.2 (by simp) (hstack f hf)
      · have heq : k = k' := Turn.run.inj hk
        exact heq ▸ h.next k rfl
  | out o k =>
      refine Or.inl ⟨rfl, h.core.resolve_left (by simp), hpush k .env rfl (by simp), ?_⟩
      intro k' hk
      exact absurd hk (by simp [perform])
  | ask p c k =>
      rcases perform_ask_cases gate st s' p c k with ⟨msg, hfail⟩ | hask
      · rw [hfail]
        exact Or.inr ⟨rfl, h.safe⟩
      · rw [hask]
        refine Or.inl ⟨rfl, h.core.resolve_left (by simp), hpush k (.part p) rfl (by simp), ?_⟩
        intro k' hk
        exact absurd hk (by simp)
  | make i c k =>
      refine Or.inl ⟨rfl, h.core.resolve_left (by simp),
        hpush k (.part st.kinds.length) rfl (by simp), ?_⟩
      intro k' hk
      exact absurd hk (by simp [perform])
  | fail msg => exact Or.inr ⟨rfl, h.safe⟩

/-- If every piece of code keeps its part, the invariant holds of every
    reachable state. -/
theorem holds_reach [Inhabited V] (gate : V → C → Option String)
    (allow : Open M → Move C V ι P → Prop)
    (hinit : spec.Core M.start [] [])
    (hcall : ∀ (st : Open M) (c : C), st.turn = .outside → allow st (.call c) →
      Reach gate allow st → spec.Core st.state st.kinds st.log →
      spec.Keeps st.state st.kinds st.log (.call c :: st.log) (M.call st.views st.state c))
    (hsaid : ∀ (st : Open M) (p : Nat) (i : ι) (o : P i), st.turn = .outside →
      allow st (.said p i o) → st.kinds[p]? = some i → spec.Core st.state st.kinds st.log →
      spec.Keeps st.state st.kinds st.log (.said p i o :: st.log)
        (M.said st.views st.state p i o))
    (hresume : ∀ (st : Open M) (k : M.Point), Resumes allow st k → Reach gate allow st →
      spec.Core st.state st.kinds st.log → spec.Frame k st.state st.kinds st.log →
      spec.Keeps st.state st.kinds st.log st.log (M.resume st.views st.state k))
    (st : Open M) (h : Reach gate allow st) : spec.Holds st := by
  refine Reach.induct spec.Holds ?_ ?_ st h
  · exact Or.inl ⟨rfl, hinit, fun f hf => absurd hf List.not_mem_nil,
      fun k hk => absurd hk (by simp [Open.init])⟩
  · intro st st' hreach hst hstep
    rcases hst with ⟨hok, hcore, hframes, hturn⟩ | ⟨hfailed, -⟩
    · cases hstep with
      | call c turn _ ok =>
          exact Keeps.holds spec gate _ _ _ _ (hcall st c turn ok hreach hcore) hframes
      | said p i o turn kind ok =>
          exact Keeps.holds spec gate _ _ _ _ (hsaid st p i o turn ok kind hcore) hframes
      | reply who k rest turn top ok =>
          refine Keeps.holds spec gate { st with stack := rest } _ _ _
            (hresume st k (Or.inl ⟨turn, ok, who, rest, top⟩) hreach hcore
              (hframes (who, k) (by rw [top]; exact List.mem_cons_self)))
            fun f hf => hframes f (by rw [top]; exact List.mem_cons_of_mem _ hf)
      | view p v turn ok => exact Or.inl ⟨hok, hcore, hframes, hturn⟩
      | run k turn ok =>
          exact Keeps.holds spec gate _ _ _ _ (hresume st k (Or.inr ⟨turn, ok⟩) hreach
            hcore (hturn k turn)) hframes
    · cases hstep with
      | call c turn _ _ => exact absurd hfailed (by simp [turn])
      | said p i o turn _ _ => exact absurd hfailed (by simp [turn])
      | reply who k rest turn _ _ => exact absurd hfailed (by simp [turn])
      | view p v turn _ => exact absurd hfailed (by simp [turn])
      | run k turn _ => exact absurd hfailed (by simp [turn])

end Spec

end Open

end Theory

end RxCppUniq
