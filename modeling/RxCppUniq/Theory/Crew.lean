import Mathlib.Logic.Function.Basic

/-!
# Crews of Workers

Workers that run side by side over one state. Each has a queue of tasks, which
it takes from the front, and runs one task at a time. The code of a task is
cut into pieces at its calls, so a worker also has a stack of the pieces that
are still to be carried out, and the workers are interleaved piece by piece.

The rest of the file is about crews in which one thing is on its way at any
time, a queued task or a piece about to be carried out. What else there is on
the stacks are leftovers, pieces that schedule nothing and call only what is
left over as well. `Sole` is that invariant. Its rules say what becomes of it
in a step of a worker that has a leftover on top, and in the step of what is on
its way.

## Main definitions

* `Effect`: What a piece of code does.
* `Code`: The pieces of tasks and calls.
* `Crew`: The workers and their state, `Crew.step` is a step of one of them.
* `Crew.Reach`: The crews that runs reach.
* `Crew.play`: The run in which the workers go on in a given order.
* `Sole`: One thing is on its way.

## Theorems

* `Sole.step_cases`: What a step of a worker can be.
* `Sole.leave`: A leftover is carried out.
* `Sole.take`, `Sole.forward`: The task on its way is run.
* `Sole.call`, `Sole.send`, `Sole.finish`: The piece on its way is carried out.
-/

namespace RxCppUniq

namespace Theory

/-- What a piece of code does. It goes on with a state after some calls, which
    are carried out one after the other, and schedules at most one task. Or a
    check fails. -/
inductive Effect (W Task Frame State : Type) where
  | go (s : State) (calls : List Frame) (task : Option (W × Task))
  | fail (msg : String)

/-- The first piece of each task, and the pieces of calls. -/
structure Code (W Task Frame State : Type) where
  run : State → Task → Effect W Task Frame State
  exec : State → Frame → Effect W Task Frame State

/-- The workers with their queues and stacks, and the state they share. -/
structure Crew (W Task Frame State : Type) where
  state : State
  queue : W → List Task
  stack : W → List Frame
  /-- The message of a check that has failed. -/
  failed : Option String := none

namespace Crew

variable {W Task Frame State : Type} [DecidableEq W]

/-- Carry out what a piece of code does on a worker with the given rest of its
    stack. -/
def perform (crew : Crew W Task Frame State) (v : W) (rest : List Frame) :
    Effect W Task Frame State → Crew W Task Frame State
  | .go s calls none =>
      { crew with state := s, stack := Function.update crew.stack v (calls ++ rest) }
  | .go s calls (some (w, t)) =>
      { crew with
        state := s
        stack := Function.update crew.stack v (calls ++ rest)
        queue := Function.update crew.queue w (crew.queue w ++ [t]) }
  | .fail msg => { crew with failed := some msg }

@[simp] theorem stack_perform (crew : Crew W Task Frame State) (v : W) (rest : List Frame)
    (s : State) (calls : List Frame) (task : Option (W × Task)) :
    (crew.perform v rest (.go s calls task)).stack =
      Function.update crew.stack v (calls ++ rest) := by
  cases task <;> rfl

@[simp] theorem state_perform (crew : Crew W Task Frame State) (v : W) (rest : List Frame)
    (s : State) (calls : List Frame) (task : Option (W × Task)) :
    (crew.perform v rest (.go s calls task)).state = s := by
  cases task <;> rfl

@[simp] theorem failed_perform (crew : Crew W Task Frame State) (v : W) (rest : List Frame)
    (s : State) (calls : List Frame) (task : Option (W × Task)) :
    (crew.perform v rest (.go s calls task)).failed = crew.failed := by
  cases task <;> rfl

@[simp] theorem queue_perform_none (crew : Crew W Task Frame State) (v : W) (rest : List Frame)
    (s : State) (calls : List Frame) :
    (crew.perform v rest (.go s calls none)).queue = crew.queue := rfl

@[simp] theorem queue_perform_some (crew : Crew W Task Frame State) (v : W) (rest : List Frame)
    (s : State) (calls : List Frame) (w : W) (t : Task) :
    (crew.perform v rest (.go s calls (some (w, t)))).queue =
      Function.update crew.queue w (crew.queue w ++ [t]) := rfl

/-- The first task of a queue is taken. -/
def dequeue (crew : Crew W Task Frame State) (v : W) : Crew W Task Frame State :=
  { crew with queue := Function.update crew.queue v (crew.queue v).tail }

@[simp] theorem queue_dequeue (crew : Crew W Task Frame State) (v : W) :
    (crew.dequeue v).queue = Function.update crew.queue v (crew.queue v).tail := rfl

@[simp] theorem stack_dequeue (crew : Crew W Task Frame State) (v : W) :
    (crew.dequeue v).stack = crew.stack := rfl

@[simp] theorem state_dequeue (crew : Crew W Task Frame State) (v : W) :
    (crew.dequeue v).state = crew.state := rfl

@[simp] theorem failed_dequeue (crew : Crew W Task Frame State) (v : W) :
    (crew.dequeue v).failed = crew.failed := rfl

/-- A worker goes on with its task, or takes the next one if there is one. -/
def step (code : Code W Task Frame State) (crew : Crew W Task Frame State) (v : W) :
    Crew W Task Frame State :=
  match crew.stack v with
  | f :: rest => crew.perform v rest (code.exec crew.state f)
  | [] =>
      match crew.queue v with
      | [] => crew
      | t :: _ => (crew.dequeue v).perform v [] (code.run crew.state t)

/-- The crews that runs from a start reach, with the workers interleaved in any
    way. After a failed check there are no more steps. -/
inductive Reach (code : Code W Task Frame State) (start : Crew W Task Frame State) :
    Crew W Task Frame State → Prop where
  | start : Reach code start start
  | step (crew : Crew W Task Frame State) (v : W) (reached : Reach code start crew)
      (running : crew.failed = none) : Reach code start (crew.step code v)

/-- What holds at the start and is kept by every step holds throughout. -/
theorem Reach.induct {code : Code W Task Frame State} {start : Crew W Task Frame State}
    (Inv : Crew W Task Frame State → Prop) (hstart : Inv start)
    (hstep : ∀ crew v, Inv crew → crew.failed = none → Inv (crew.step code v))
    (crew : Crew W Task Frame State) (h : Reach code start crew) : Inv crew := by
  induction h with
  | start => exact hstart
  | step crew v _ running ih => exact hstep crew v ih running

/-- A check that has failed stays failed. -/
theorem failed_step (code : Code W Task Frame State) (crew : Crew W Task Frame State) (v : W)
    (h : (crew.step code v).failed = none) : crew.failed = none := by
  have hperform : ∀ (crew' : Crew W Task Frame State) rest effect,
      (crew'.perform v rest effect).failed = none → crew'.failed = none := by
    intro crew' rest effect hnone
    cases effect with
    | go s calls task =>
        rw [failed_perform] at hnone
        exact hnone
    | fail msg => exact absurd hnone (by simp only [perform, reduceCtorEq, not_false_eq_true])
  rw [step] at h
  cases hstack : crew.stack v with
  | cons f rest =>
      rw [hstack] at h
      exact hperform crew rest _ h
  | nil =>
      rw [hstack] at h
      cases hqueue : crew.queue v with
      | nil =>
          rw [hqueue] at h
          exact h
      | cons t ts =>
          rw [hqueue] at h
          exact hperform (crew.dequeue v) [] _ h

/-- Let the workers of a list go on, one after the other. -/
def play (code : Code W Task Frame State) (crew : Crew W Task Frame State) :
    List W → Crew W Task Frame State
  | [] => crew
  | v :: vs => play code (crew.step code v) vs

/-- What is played without a failed check is reachable. -/
theorem reach_of_play (code : Code W Task Frame State) (start : Crew W Task Frame State)
    (vs : List W) (crew : Crew W Task Frame State) (hcrew : Reach code start crew)
    (h : (play code crew vs).failed = none) : Reach code start (play code crew vs) := by
  have hrunning : ∀ (vs : List W) (crew : Crew W Task Frame State),
      (play code crew vs).failed = none → crew.failed = none := by
    intro vs
    induction vs with
    | nil => exact fun _ h => h
    | cons v vs ih => exact fun crew h => failed_step code crew v (ih _ h)
  induction vs generalizing crew with
  | nil => exact hcrew
  | cons v vs ih =>
      exact ih _ (.step crew v hcrew (failed_step code crew v (hrunning vs _ h))) h

/-- No task is queued and none is running. -/
def Drained (crew : Crew W Task Frame State) : Prop :=
  ∀ v, crew.queue v = [] ∧ crew.stack v = []

end Crew

/-- What is on its way: a queued task, or a piece about to be carried out and
    what is below it on the stack. -/
inductive Going (Task Frame : Type) where
  | task (t : Task)
  | frame (f : Frame) (rest : List Frame)

/-- One thing is on its way, on a given worker, or nothing any more. All other
    pieces are leftovers. -/
structure Sole {W Task Frame State : Type} (Left : W → Frame → Prop)
    (crew : Crew W Task Frame State) (going : Option (W × Going Task Frame)) : Prop where
  queue : ∀ v, crew.queue v ≠ [] → ∃ t, going = some (v, .task t)
  task : ∀ v t, going = some (v, .task t) → crew.queue v = [t]
  frame : ∀ v f rest, going = some (v, .frame f rest) → crew.stack v = f :: rest
  left : ∀ v, (∀ f rest, going ≠ some (v, .frame f rest)) → ∀ f ∈ crew.stack v, Left v f

namespace Sole

variable {W Task Frame State : Type} [DecidableEq W] {Left Left' : W → Frame → Prop}
  {code : Code W Task Frame State} {crew : Crew W Task Frame State}
  {going : Option (W × Going Task Frame)}

/-- A worker can do nothing, has a leftover on top of its stack, or is the one
    on which something is on its way. -/
theorem step_cases (code : Code W Task Frame State) (h : Sole Left crew going) (v : W) :
    crew.step code v = crew ∨
    (∃ f rest, crew.stack v = f :: rest ∧ (∀ g ∈ f :: rest, Left v g) ∧
      (∀ g r, going ≠ some (v, .frame g r)) ∧
      crew.step code v = crew.perform v rest (code.exec crew.state f)) ∨
    (∃ t, going = some (v, .task t) ∧ crew.stack v = [] ∧
      crew.step code v = (crew.dequeue v).perform v [] (code.run crew.state t)) ∨
    (∃ f rest, going = some (v, .frame f rest) ∧
      crew.step code v = crew.perform v rest (code.exec crew.state f)) := by
  rw [Crew.step]
  cases hstack : crew.stack v with
  -- the top of the stack is the frame on its way, or all of the stack is left over
  | cons f rest =>
      by_cases hgoing : ∃ g r, going = some (v, .frame g r)
      · rcases hgoing with ⟨g, r, hgoing⟩
        have heq := (h.frame v g r hgoing).symm.trans hstack
        rw [List.cons.injEq] at heq
        exact Or.inr (Or.inr (Or.inr ⟨g, r, hgoing, by rw [heq.1, heq.2]⟩))
      · have hnone : ∀ g r, going ≠ some (v, .frame g r) :=
          fun g r heq => hgoing ⟨g, r, heq⟩
        exact Or.inr (Or.inl ⟨f, rest, rfl, fun g hg => h.left v hnone g (hstack ▸ hg), hnone, rfl⟩)
  | nil =>
      cases hqueue : crew.queue v with
      | nil => exact Or.inl rfl
      | cons t ts =>
          rcases h.queue v (by rw [hqueue]; exact List.cons_ne_nil t ts) with ⟨t', hgoing⟩
          have heq := (h.task v t' hgoing).symm.trans hqueue
          rw [List.cons.injEq] at heq
          exact Or.inr (Or.inr (Or.inl ⟨t', hgoing, rfl, by rw [heq.1]⟩))

omit [DecidableEq W] in
/-- The queue is empty where no task is on its way. -/
theorem queue_eq_nil (h : Sole Left crew going) (v : W)
    (hv : ∀ t, going ≠ some (v, .task t)) : crew.queue v = [] := by
  by_contra hne
  rcases h.queue v hne with ⟨t, ht⟩
  exact hv t ht

/-- A leftover is carried out. -/
theorem leave (h : Sole Left crew going) (v : W) (rest calls : List Frame) (s : State)
    (hnone : ∀ g r, going ≠ some (v, .frame g r)) (hleft : ∀ f ∈ calls ++ rest, Left v f) :
    Sole Left (crew.perform v rest (.go s calls none)) going where
  queue := h.queue
  task := h.task
  frame w f r hw := by
    have hne : w ≠ v := by
      intro heq
      exact hnone f r (heq ▸ hw)
    rw [Crew.stack_perform, Function.update_of_ne hne]
    exact h.frame w f r hw
  left w hw f hf := by
    by_cases hv : w = v
    · subst hv
      rw [Crew.stack_perform, Function.update_self] at hf
      exact hleft f hf
    · rw [Crew.stack_perform, Function.update_of_ne hv] at hf
      exact h.left w hw f hf

section Task

variable {v : W} {t : Task} (h : Sole Left crew (some (v, .task t)))

include h

/-- Once the task on its way is taken from its queue no other is queued. -/
theorem queue_dequeue (w : W) : (crew.dequeue v).queue w = [] := by
  rw [Crew.queue_dequeue]
  by_cases hv : w = v
  · rw [hv, Function.update_self, h.task v t rfl, List.tail_cons]
  · rw [Function.update_of_ne hv]
    refine h.queue_eq_nil w (fun t' heq => ?_)
    rw [Option.some.injEq, Prod.mk.injEq] at heq
    exact hv heq.1.symm

omit [DecidableEq W] in
/-- While a task is on its way all pieces are leftovers. -/
theorem left_of_task (w : W) (g : Frame) (hg : g ∈ crew.stack w) : Left w g :=
  h.left w (fun f rest heq => by
    simp only [Option.some.injEq, Prod.mk.injEq, reduceCtorEq, and_false] at heq) g hg

/-- The task on its way is taken from its queue, and its first call is on its
    way. -/
theorem take (s : State) (f : Frame) (calls : List Frame)
    (hmono : ∀ w g, Left w g → Left' w g) :
    Sole Left' ((crew.dequeue v).perform v [] (.go s (f :: calls) none))
      (some (v, .frame f calls)) where
  queue w hw := absurd (h.queue_dequeue w) hw
  task w t' hw := by simp only [Option.some.injEq, Prod.mk.injEq, reduceCtorEq, and_false] at hw
  frame w g r hw := by
    simp only [Option.some.injEq, Prod.mk.injEq, Going.frame.injEq] at hw
    rcases hw with ⟨rfl, rfl, rfl⟩
    rw [Crew.stack_perform, Function.update_self, List.append_nil]
  left w hw g hg := by
    have hne : w ≠ v := by
      intro heq
      exact hw f calls (by rw [heq])
    rw [Crew.stack_perform, Function.update_of_ne hne] at hg
    exact hmono w g (h.left_of_task w g hg)

/-- The task on its way is taken from its queue and schedules the next one. -/
theorem forward (s : State) (w : W) (t' : Task) (hmono : ∀ w g, Left w g → Left' w g) :
    Sole Left' ((crew.dequeue v).perform v [] (.go s [] (some (w, t'))))
      (some (w, .task t')) where
  queue u hu := by
    by_cases hw : u = w
    · exact ⟨t', by rw [hw]⟩
    · rw [Crew.queue_perform_some, Function.update_of_ne hw] at hu
      exact absurd (h.queue_dequeue u) hu
  task u t'' hu := by
    simp only [Option.some.injEq, Prod.mk.injEq, Going.task.injEq] at hu
    rcases hu with ⟨rfl, rfl⟩
    rw [Crew.queue_perform_some, Function.update_self, h.queue_dequeue, List.nil_append]
  frame u g r hu := by simp only [Option.some.injEq, Prod.mk.injEq, reduceCtorEq, and_false] at hu
  left u _ g hg := by
    by_cases hv : u = v
    · rw [hv, Crew.stack_perform, Function.update_self] at hg
      exact absurd hg List.not_mem_nil
    · rw [Crew.stack_perform, Function.update_of_ne hv] at hg
      exact hmono u g (h.left_of_task u g hg)

end Task

section Frame

variable {v : W} {f : Frame} {rest : List Frame} (h : Sole Left crew (some (v, .frame f rest)))

include h

omit [DecidableEq W] in
/-- While a piece is on its way no task is queued. -/
theorem queue_nil (w : W) : crew.queue w = [] :=
  h.queue_eq_nil w fun t heq => by
    simp only [Option.some.injEq, Prod.mk.injEq, reduceCtorEq, and_false] at heq

/-- What is on the stacks after the piece has been carried out are leftovers,
    apart from what it was carried out on. -/
theorem left_update (l : List Frame) (hmono : ∀ w g, Left w g → Left' w g) (w : W) (hne : w ≠ v)
    (g : Frame) (hg : g ∈ Function.update crew.stack v l w) : Left' w g := by
  rw [Function.update_of_ne hne] at hg
  refine hmono w g (h.left w (fun g' r' heq => ?_) g hg)
  rw [Option.some.injEq, Prod.mk.injEq] at heq
  exact hne heq.1.symm

/-- The piece on its way makes a call. -/
theorem call (s : State) (g : Frame) (calls : List Frame)
    (hmono : ∀ w g, Left w g → Left' w g) :
    Sole Left' (crew.perform v rest (.go s (g :: calls) none))
      (some (v, .frame g (calls ++ rest))) where
  queue w hw := absurd (h.queue_nil w) hw
  task w t hw := by simp only [Option.some.injEq, Prod.mk.injEq, reduceCtorEq, and_false] at hw
  frame w g' r hw := by
    simp only [Option.some.injEq, Prod.mk.injEq, Going.frame.injEq] at hw
    rcases hw with ⟨rfl, rfl, rfl⟩
    rw [Crew.stack_perform, Function.update_self, List.cons_append]
  left w hw g' hg := by
    have hne : w ≠ v := by
      intro heq
      exact hw g (calls ++ rest) (by rw [heq])
    exact h.left_update _ hmono w hne g' hg

/-- The piece on its way schedules a task. -/
theorem send (s : State) (calls : List Frame) (w : W) (t : Task)
    (hmono : ∀ w g, Left w g → Left' w g) (hleft : ∀ g ∈ calls ++ rest, Left' v g) :
    Sole Left' (crew.perform v rest (.go s calls (some (w, t)))) (some (w, .task t)) where
  queue u hu := by
    by_cases hw : u = w
    · exact ⟨t, by rw [hw]⟩
    · rw [Crew.queue_perform_some, Function.update_of_ne hw] at hu
      exact absurd (h.queue_nil u) hu
  task u t' hu := by
    simp only [Option.some.injEq, Prod.mk.injEq, Going.task.injEq] at hu
    rcases hu with ⟨rfl, rfl⟩
    rw [Crew.queue_perform_some, Function.update_self, h.queue_nil, List.nil_append]
  frame u g r hu := by simp only [Option.some.injEq, Prod.mk.injEq, reduceCtorEq, and_false] at hu
  left u _ g hg := by
    by_cases hv : u = v
    · rw [hv, Crew.stack_perform, Function.update_self] at hg
      exact hv ▸ hleft g hg
    · exact h.left_update _ hmono u hv g hg

/-- Nothing is on its way any more. -/
theorem finish (s : State) (calls : List Frame) (hmono : ∀ w g, Left w g → Left' w g)
    (hleft : ∀ g ∈ calls ++ rest, Left' v g) :
    Sole Left' (crew.perform v rest (.go s calls none)) none where
  queue w hw := absurd (h.queue_nil w) hw
  task w t hw := by simp only [reduceCtorEq] at hw
  frame w g r hw := by simp only [reduceCtorEq] at hw
  left w _ g hg := by
    by_cases hv : w = v
    · rw [hv, Crew.stack_perform, Function.update_self] at hg
      exact hv ▸ hleft g hg
    · exact h.left_update _ hmono w hv g hg

end Frame

omit [DecidableEq W] in
/-- When nothing is queued and nothing is running, nothing is on its way. -/
theorem eq_none_of_drained (h : Sole Left crew going) (hdrained : crew.Drained) :
    going = none := by
  cases going with
  | none => rfl
  | some b =>
      rcases b with ⟨v, t | ⟨f, rest⟩⟩
      · have hqueue := (h.task v t rfl).symm.trans (hdrained v).1
        exact absurd hqueue (List.cons_ne_nil t [])
      · have hstack := (h.frame v f rest rfl).symm.trans (hdrained v).2
        exact absurd hstack (List.cons_ne_nil f rest)

end Sole

end Theory

end RxCppUniq
