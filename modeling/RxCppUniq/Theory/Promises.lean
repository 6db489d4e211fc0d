import RxCppUniq.Theory.Open

/-!
# Promises

The rule for a property that holds whenever a component is at rest, but not
while one of its methods is under way. A method may break it, as long as
the point at which the method goes on makes it good; until then the point is
on the stack, however deep, and other calls may come in between.

A promise is a property and the points that make it good. What the code owes
is that a piece of code either leaves the property as it finds it, or goes on
at such a point, and that a piece of code that starts at such a point brings
the property about or goes on at another. At rest nothing is on the stack, so
the property holds.

## Main definitions

* `Open.Promise`: A property and the points that make it good.
* `Open.Promise.Meets`: What a piece of code owes.
* `Open.Promise.Stands`: The property holds, or somebody will make it good.

## Theorems

* `Open.Promise.stands_reach`: If every piece of code does what it owes, the
  promise stands in every reachable state.
* `Open.Promise.kept_at_rest`: A promise that stands is kept at rest.
-/

namespace RxCppUniq

namespace Theory

variable {C O V ι : Type} {P : ι → Type}

namespace Open

/-- A property of the views, the state and the log, and the points that make
    it good. -/
structure Promise (M : Component C O V ι P) where
  Kept : (Nat → V) → M.State → List (Note C O ι P) → Prop
  due : M.Point → Bool

namespace Promise

variable {M : Component C O V ι P} (promise : Promise M)

/-- What a piece of code owes that ends with `r`, if it finds the property as
    `found` says. -/
def Meets (found : Prop) (views : Nat → V) (kinds : List ι) (log : List (Note C O ι P))
    (r : M.State × Act C O ι M.Point) : Prop :=
  (∃ msg, r.2 = .fail msg) ∨ (∃ k, r.2.next = some k ∧ promise.due k = true) ∨
    (found → promise.Kept views r.1 (r.2.log kinds log))

/-- A point that makes the property good is where the component is, or is on
    the stack. -/
def Pending (st : Open M) : Prop :=
  ∃ k, promise.due k = true ∧ (st.turn = .run k ∨ ∃ who, (who, k) ∈ st.stack)

/-- The property holds, or somebody will make it good, or a check has
    failed. -/
def Stands (st : Open M) : Prop :=
  st.turn.isFailed = true ∨ promise.Pending st ∨ promise.Kept st.views st.state st.log

/-- At rest nobody is left to make anything good. -/
theorem kept_at_rest (st : Open M) (h : promise.Stands st) (hturn : st.turn = .outside)
    (hstack : st.stack = []) : promise.Kept st.views st.state st.log := by
  rcases h with hfailed | ⟨k, -, hrun | ⟨who, hmem⟩⟩ | hkept
  · rw [hturn] at hfailed
    cases hfailed
  · rw [hturn] at hrun
    cases hrun
  · rw [hstack] at hmem
    cases hmem
  · exact hkept

/-- Carrying out what a piece of code owes lets the promise stand. What it
    found is the property, unless somebody else is left to make it good. -/
theorem Meets.stands (gate : V → C → Option String) (st : Open M)
    (r : M.State × Act C O ι M.Point) (found : Prop)
    (h : promise.Meets found st.views st.kinds st.log r)
    (hfound : (∃ k who, promise.due k = true ∧ (who, k) ∈ st.stack) ∨ found) :
    promise.Stands (perform gate st r) := by
  rcases r with ⟨s, a⟩
  -- a point that was on the stack still is
  have hkeep (t : Open M) (hsub : ∀ f ∈ st.stack, f ∈ t.stack)
      (hdone : promise.Kept st.views s (a.log st.kinds st.log) →
        promise.Kept t.views t.state t.log)
      (hnext : ∀ k, a.next = some k → t.turn = .run k ∨ ∃ who, (who, k) ∈ t.stack)
      (hok : ∀ msg, a ≠ .fail msg) : promise.Stands t := by
    rcases hfound with ⟨k, who, hdue, hmem⟩ | hfound
    · exact Or.inr (Or.inl ⟨k, hdue, Or.inr ⟨who, hsub _ hmem⟩⟩)
    · rcases h with ⟨msg, hmsg⟩ | ⟨k, hk, hdue⟩ | hkept
      · exact absurd hmsg (hok msg)
      · exact Or.inr (Or.inl ⟨k, hdue, hnext k hk⟩)
      · exact Or.inr (Or.inr (hdone (hkept hfound)))
  cases a with
  | ret =>
      exact hkeep _ (fun _ hf => hf) id (fun k hk => (by cases hk)) (fun _ hno => (by cases hno))
  | goto k =>
      refine hkeep _ (fun _ hf => hf) id (fun k' hk => Or.inl ?_) (fun _ hno => (by cases hno))
      rw [perform_goto, Option.some.inj hk]
  | out o k =>
      refine hkeep _ (fun _ hf => List.mem_cons_of_mem _ hf) id (fun k' hk => Or.inr ⟨.env, ?_⟩)
        (fun _ hno => (by cases hno))
      rw [perform_out, Option.some.inj hk]
      exact List.mem_cons_self
  | ask p c k =>
      rcases perform_ask_cases gate st s p c k with ⟨msg, hfail⟩ | hask
      · rw [hfail]
        exact Or.inl rfl
      · rw [hask]
        refine hkeep _ (fun _ hf => List.mem_cons_of_mem _ hf) id
          (fun k' hk => Or.inr ⟨.part p, ?_⟩) (fun _ hno => (by cases hno))
        rw [Option.some.inj hk]
        exact List.mem_cons_self
  | make i c k =>
      refine hkeep _ (fun _ hf => List.mem_cons_of_mem _ hf) id
        (fun k' hk => Or.inr ⟨.part st.kinds.length, ?_⟩) (fun _ hno => (by cases hno))
      rw [perform_make, Option.some.inj hk]
      exact List.mem_cons_self
  | fail msg => exact Or.inl rfl

/-- If every piece of code does what it owes, the promise stands in every
    reachable state. -/
theorem stands_reach [Inhabited V] (gate : V → C → Option String)
    (allow : Open M → Move C V ι P → Prop)
    (hinit : promise.Kept (fun _ => default) M.start [])
    (hcall : ∀ (st : Open M) (c : C), Reach gate allow st → st.turn = .outside →
      allow st (.call c) →
      promise.Meets (promise.Kept st.views st.state st.log) st.views st.kinds (.call c :: st.log)
        (M.call st.views st.state c))
    (hsaid : ∀ (st : Open M) (p : Nat) (i : ι) (o : P i), Reach gate allow st →
      st.turn = .outside → allow st (.said p i o) → st.kinds[p]? = some i →
      promise.Meets (promise.Kept st.views st.state st.log) st.views st.kinds
        (.said p i o :: st.log) (M.said st.views st.state p i o))
    (hresume : ∀ (st : Open M) (k : M.Point), Reach gate allow st → Resumes allow st k →
      promise.Meets (promise.due k = false → promise.Kept st.views st.state st.log) st.views
        st.kinds st.log (M.resume st.views st.state k))
    (hview : ∀ (st : Open M) (p : Nat) (v : V), allow st (.view p v) →
      promise.Kept st.views st.state st.log →
      promise.Kept (fun q => if q = p then v else st.views q) st.state st.log)
    (st : Open M) (h : Reach gate allow st) : promise.Stands st := by
  refine Reach.induct promise.Stands (Or.inr (Or.inr hinit)) ?_ st h
  intro st st' hreach hst hstep
  -- outside the component, what stands is kept or is on the stack
  have houtside (hturn : st.turn = .outside) :
      (∃ k who, promise.due k = true ∧ (who, k) ∈ st.stack) ∨
        promise.Kept st.views st.state st.log := by
    rcases hst with hfailed | ⟨k, hdue, hrun | ⟨who, hmem⟩⟩ | hkept
    · rw [hturn] at hfailed
      cases hfailed
    · rw [hturn] at hrun
      cases hrun
    · exact Or.inl ⟨k, who, hdue, hmem⟩
    · exact Or.inr hkept
  cases hstep with
  | call c turn _ ok =>
      exact Meets.stands promise gate _ _ _ (hcall st c hreach turn ok) (houtside turn)
  | said p i o turn kind ok =>
      exact Meets.stands promise gate _ _ _ (hsaid st p i o hreach turn ok kind) (houtside turn)
  | reply who k rest turn top ok =>
      refine Meets.stands promise gate { st with stack := rest } _ _
        (hresume st k hreach (Or.inl ⟨turn, ok, who, rest, top⟩)) ?_
      rcases houtside turn with ⟨k', who', hdue, hmem⟩ | hkept
      · rw [top] at hmem
        rcases List.mem_cons.mp hmem with heq | hmem
        · refine Or.inr fun hno => absurd (hno.symm.trans ?_) Bool.false_ne_true
          rw [← (Prod.mk.inj heq).2]
          exact hdue
        · exact Or.inl ⟨k', who', hdue, hmem⟩
      · exact Or.inr fun _ => hkept
  | view p v turn ok =>
      rcases houtside turn with ⟨k, who, hdue, hmem⟩ | hkept
      · exact Or.inr (Or.inl ⟨k, hdue, Or.inr ⟨who, hmem⟩⟩)
      · exact Or.inr (Or.inr (hview st p v ok hkept))
  | run k turn ok =>
      refine Meets.stands promise gate st _ _ (hresume st k hreach (Or.inr ⟨turn, ok⟩)) ?_
      rcases hst with hfailed | ⟨k', hdue, hrun | ⟨who, hmem⟩⟩ | hkept
      · rw [turn] at hfailed
        cases hfailed
      · refine Or.inr fun hno => absurd (hno.symm.trans ?_) Bool.false_ne_true
        rw [Turn.run.inj (turn.symm.trans hrun)]
        exact hdue
      · exact Or.inl ⟨k', who, hdue, hmem⟩
      · exact Or.inr fun _ => hkept

end Promise

end Open

end Theory

end RxCppUniq
