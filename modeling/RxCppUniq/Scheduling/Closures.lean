import RxCppUniq.Scheduling.Workers

/-!
# When the Closure of a Task is Destroyed

A task that a worker has given the pool lives in the `std::function` that a
thread has taken from the queue. The function is a variable of the loop in
`PerThreadActivity`: it is destroyed after the job, hence after the section at
the end of the worker's job, which has by then given the pool the next task.
What the task has captured is destroyed with it, also the subscriber that
`AsyncOnNextHelper` moves into the task for the last event.

With one thread nobody else can take the next task, and the thread destroys
the closure before it gets to the queue again. With two the other thread may
take it while the first is still at the end of the section.

## Main definitions

* `Pool.Released`: Whenever a task of a worker was started, the closures of
  all before it had been destroyed.
* `Thread.closure`: The task whose closure a thread holds.
* `Pool.Kept`: Tasks that were started and not destroyed are in hand.

## Theorems

* `Pool.Kept.external`, `Pool.Kept.internal`: The steps of a pool with one
  thread.
* `overtaken_reach`: A pool with two threads starts a task while the closure
  of the one before it is being destroyed.
* `released_iff`: The pools that release in turn are those with one thread.
-/

namespace RxCppUniq

variable {W T : Type} [DecidableEq W]

/-- The task of a job, if it is one of the worker `w`. -/
def Job.captured (w : W) : Job W T → List T
  | .direct _ => []
  | .step v task => if v = w then [task] else []

/-- The task of the worker `w` whose closure a thread holds: from where it has
    taken the job to where it has destroyed it. -/
def Thread.closure (w : W) : Thread W T → List T
  | .starting => []
  | .waiting => []
  | .released => []
  | .calling job => job.captured w
  | .posting job _ _ => job.captured w
  | .returned job => job.captured w
  | .completing v task _ => if v = w then [task] else []
  | .destroying job => job.captured w
  | .ready => []

namespace Pool

/-- Whenever a task of the worker `w` was started, the closures of all tasks
    started before it had been destroyed. -/
def Released (w : W) (log : List (Stage × Job W T)) : Prop :=
  ∀ new old task, log = new ++ (.started, .step w task) :: old →
    history .destroyed w old = history .started w old

/-- In a pool with at most one thread, the tasks of the worker `w` that were
    started are those whose closures were destroyed, and the one the thread
    has in hand. -/
structure Kept (w : W) (p : Pool W T) : Prop where
  single : p.threads.length ≤ 1
  started : history .started w p.log =
    history .destroyed w p.log ++ p.threads.flatMap (Thread.closure w)
  released : Released w p.log

section Kept

variable (w : W) {p q : Pool W T}

theorem history_started (job : Job W T) (log : List (Stage × Job W T)) (stage : Stage) :
    history stage w ((stage, job) :: log) = history stage w log ++ job.captured w := by
  cases job with
  | direct task => exact (List.append_nil _).symm
  | step v task =>
      by_cases hv : v = w
      · rw [hv, history_step, Job.captured, if_pos rfl]
      · rw [history_other w stage stage _ log fun t heq => absurd (Job.step.inj heq).1 hv,
          Job.captured, if_neg hv, List.append_nil]

theorem Released.cons {log : List (Stage × Job W T)} (h : Released w log) (s : Stage)
    (job : Job W T) (hs : s = .started → history .destroyed w log = history .started w log) :
    Released w ((s, job) :: log) := by
  intro new old task heq
  cases new with
  | nil =>
      rw [List.nil_append, List.cons.injEq, Prod.mk.injEq] at heq
      exact heq.2 ▸ hs heq.1.1
  | cons e new =>
      rw [List.cons_append, List.cons.injEq] at heq
      exact h new old task heq.2

omit [DecidableEq W] in
/-- A thread of a pool with at most one is the only one. -/
theorem threads_of_single (h : p.threads.length ≤ 1) (i : Nat) (a : Thread W T)
    (phase : p.threads[i]? = some a) :
    p.threads = [a] ∧ ∀ b, p.threads.set i b = [b] := by
  rcases List.getElem?_eq_some_iff.mp phase with ⟨hlt, heq⟩
  rcases hthreads : p.threads with _ | ⟨t, _ | ⟨u, rest⟩⟩
  · rw [hthreads] at hlt
    exact absurd hlt (Nat.not_lt_zero i)
  · -- There is one thread, so it is the first.
    rw [hthreads, List.length_singleton, Nat.lt_one_iff] at hlt
    subst hlt
    rw [hthreads] at phase
    exact ⟨by rw [← Option.some.inj phase], fun b => rfl⟩
  · rw [hthreads, List.length_cons, List.length_cons] at h
    omega

namespace Kept

variable {w}

theorem start (n : Nat) (h : n ≤ 1) : Kept w (start n : Pool W T) where
  single := (List.length_replicate).trans_le h
  started := by
    have hnone : (List.replicate n (Thread.starting : Thread W T)).flatMap (Thread.closure w) =
        [] := by
      rw [List.flatMap_eq_nil_iff]
      intro t ht
      rw [List.eq_of_mem_replicate ht, Thread.closure]
    simp only [Pool.start, hnone]
    rfl
  released new old task heq := absurd heq.symm (by simp only [Pool.start, List.append_eq_nil_iff,
    reduceCtorEq, and_false, not_false_eq_true])

/-- Nothing was started or destroyed, and the threads hold what they held. -/
theorem same (h : Kept w p) (hsingle : q.threads.length = p.threads.length)
    (hthreads : q.threads.flatMap (Thread.closure w) = p.threads.flatMap (Thread.closure w))
    (hlog : q.log = p.log) : Kept w q where
  single := hsingle.trans_le h.single
  started := by rw [hlog, hthreads, h.started]
  released := hlog ▸ h.released

/-- A stage is noted at which no task is started and no closure destroyed. -/
theorem note (h : Kept w p) (s : Stage) (job : Job W T)
    (hs : s = .scheduled ∨ s = .returned ∨ s = .completed) : Kept w (p.note s job) := by
  have hstarted : s ≠ .started := by
    rcases hs with rfl | rfl | rfl <;> simp only [ne_eq, reduceCtorEq, not_false_eq_true]
  have hdestroyed : s ≠ .destroyed := by
    rcases hs with rfl | rfl | rfl <;> simp only [ne_eq, reduceCtorEq, not_false_eq_true]
  refine ⟨h.single, ?_, h.released.cons w s job fun heq => absurd heq hstarted⟩
  rw [Pool.note, history_other w _ s job p.log fun _ _ => hstarted,
    history_other w _ s job p.log fun _ _ => hdestroyed, h.started]

theorem setThread (h : Kept w p) (i : Nat) (a b : Thread W T) (phase : p.threads[i]? = some a)
    (hab : b.closure w = a.closure w) : Kept w (p.setThread i b) := by
  rcases threads_of_single h.single i a phase with ⟨hp, hq⟩
  refine h.same List.length_set ?_ rfl
  rw [Pool.setThread, hq b, hp, List.flatMap_singleton, List.flatMap_singleton, hab]

theorem post (h : Kept w p) (job : Job W T) (who : Option Nat) (hsignals : p.Signals who) :
    Kept w (p.post job who) := by
  refine h.same (length_post job who) ?_ rfl
  cases who with
  | none => rfl
  | some i =>
      rcases threads_of_single h.single i .waiting hsignals with ⟨hp, hq⟩
      change (p.threads.set i .released).flatMap (Thread.closure w) = _
      rw [hq, hp]
      rfl

theorem setWorker (h : Kept w p) (v : W) (worker : Worker T) : Kept w (p.setWorker v worker) :=
  h.same rfl rfl rfl

theorem postStep (h : Kept w p) (v : W) (next : T) (who : Option Nat) (hsignals : p.Signals who) :
    Kept w (p.postStep v next who) :=
  (h.setWorker v (p.workers v).release).post (.step v next) who hsignals

theorem scheduleOn (h : Kept w p) (v : W) (task : T) : Kept w (p.scheduleOn v task) :=
  (h.setWorker v ((p.workers v).schedule task).1).note .scheduled (.step v task) (.inl rfl)

theorem completeOn (h : Kept w p) (v : W) (task : T) : Kept w (p.completeOn v task) :=
  (h.setWorker v (p.workers v).complete.1).note .completed (.step v task) (.inr (.inr rfl))

/-- The thread looks for a job when it holds no closure, so that all closures
    were destroyed. -/
theorem look (h : Kept w p) (i : Nat) (a : Thread W T) (active : Nat)
    (phase : p.threads[i]? = some a) (hnone : ∀ v, a.closure v = []) :
    Kept w (p.look i active) := by
  rcases threads_of_single h.single i a phase with ⟨hp, hq⟩
  have hall : history .started w p.log = history .destroyed w p.log := by
    rw [h.started, hp, List.flatMap_singleton, hnone w, List.append_nil]
  unfold Pool.look
  cases htodo : p.todo with
  | nil => exact (h.setThread i a .waiting phase (hnone w).symm).same rfl rfl rfl
  | cons job todo =>
      refine ⟨(List.length_set).trans_le h.single, ?_, ?_⟩
      · change history .started w ((.started, job) :: p.log) =
          history .destroyed w ((.started, job) :: p.log) ++
            (p.threads.set i (.calling job)).flatMap (Thread.closure w)
        rw [history_started, history_other w _ _ job p.log fun _ _ =>
          by simp only [ne_eq, reduceCtorEq, not_false_eq_true], hq, List.flatMap_singleton, hall]
        rfl
      · exact h.released.cons w .started job fun _ => hall.symm

/-- The closure is destroyed. -/
theorem destroy (h : Kept w p) (i : Nat) (job : Job W T)
    (phase : p.threads[i]? = some (.destroying job)) :
    Kept w ((p.setThread i .ready).note .destroyed job) := by
  rcases threads_of_single h.single i _ phase with ⟨hp, hq⟩
  refine ⟨(List.length_set).trans_le h.single, ?_, ?_⟩
  · change history .started w ((.destroyed, job) :: p.log) =
      history .destroyed w ((.destroyed, job) :: p.log) ++
        (p.threads.set i .ready).flatMap (Thread.closure w)
    rw [history_started, history_other w _ _ job p.log fun _ _ =>
      by simp only [ne_eq, reduceCtorEq, not_false_eq_true], hq, h.started, hp,
      List.flatMap_singleton, List.flatMap_singleton, List.append_assoc]
    exact congrArg (_ ++ ·) (List.append_nil _).symm
  · exact h.released.cons w .destroyed job fun heq => absurd heq
      (by simp only [reduceCtorEq, not_false_eq_true])

theorem external (h : Kept w p) (hstep : External p q) : Kept w q := by
  cases hstep with
  | direct task who signals =>
      exact (h.note .scheduled (.direct task) (.inl rfl)).post _ who signals
  | enqueue v task free none => exact h.scheduleOn v task
  | begin_ v task next free some => exact (h.scheduleOn v task).same rfl rfl rfl

theorem internal (h : Kept w p) (hstep : Internal p q) : Kept w q := by
  cases hstep with
  | finish before after v next who call signals =>
      refine Kept.postStep (p := { p with external := before ++ after }) ?_ v next who signals
      exact h.same rfl rfl rfl
  | wake i phase => exact h.setThread i _ .released phase rfl
  | first i phase => exact h.look i .starting _ phase fun _ => rfl
  | again i phase => exact h.look i .ready _ phase fun _ => rfl
  | relook i phase => exact h.look i .released _ phase fun _ => rfl
  | direct i job task who phase signals =>
      exact (h.note .scheduled (.direct task) (.inl rfl)).post _ who signals
  | enqueue i job v task phase free none => exact h.scheduleOn v task
  | begin_ i job v task next phase free some =>
      exact (h.scheduleOn v task).setThread i _ (.posting job v next) phase rfl
  | posts i job v next who phase signals =>
      exact (h.setThread i _ (.calling job) phase rfl).postStep v next who
        (signals.setThread i _ _ phase (by simp only [ne_eq, reduceCtorEq, not_false_eq_true])
          (by simp only [ne_eq, reduceCtorEq, not_false_eq_true]))
  | return_ i job phase =>
      exact (h.setThread i _ (.returned job) phase rfl).note .returned job
        (.inr (.inl rfl))
  | completeDirect i task phase =>
      exact (h.setThread i _ (.destroying (.direct task)) phase rfl).note .completed (.direct task)
        (.inr (.inr rfl))
  | complete i v task phase free none =>
      exact (h.completeOn v task).setThread i _ (.destroying (.step v task)) phase rfl
  | beginNext i v task next phase free some =>
      exact (h.completeOn v task).setThread i _ (.completing v task next) phase rfl
  | postsNext i v task next who phase signals =>
      exact (h.setThread i _ (.destroying (.step v task)) phase rfl).postStep v next who
        (signals.setThread i _ _ phase (by simp only [ne_eq, reduceCtorEq, not_false_eq_true])
          (by simp only [ne_eq, reduceCtorEq, not_false_eq_true]))
  | destroy i job phase => exact h.destroy i job phase

end Kept

theorem kept_reach (n : Nat) (hn : n ≤ 1) (p : Pool W T) (h : Reach n p) : Kept w p := by
  induction h with
  | start => exact .start n hn
  | external p next _ hstep ih => exact ih.external hstep
  | internal p next _ hstep ih => exact ih.internal hstep

end Kept

/-- A pool in which one worker was given one task some times, whose first two
    threads are at `a` and `b`. -/
def scene (w : W) (task : T) (worker : Worker T) (todo : List (Job W T)) (a b : Thread W T)
    (k active : Nat) (external : List (W × T)) (stages : List Stage) : Pool W T :=
  { workers := Function.update (fun _ => {}) w worker, todo := todo,
    threads := a :: b :: List.replicate k .starting, activeCount := active,
    external := external, log := stages.map (·, .step w task) }

section Scene

variable (w : W) (task : T) (worker : Worker T) (todo : List (Job W T)) (a b : Thread W T)
  (k active : Nat) (external : List (W × T)) (stages : List Stage)

theorem scene_start : start (k + 2) =
    scene w task {} [] .starting .starting k (k + 2) [] [] := by
  have hnone : Function.update (fun _ : W => ({} : Worker T)) w {} = fun _ => {} :=
    Function.update_eq_self w _
  rw [scene, hnone]
  rfl

theorem scene_workers :
    (scene w task worker todo a b k active external stages).workers w = worker := by
  simp only [scene, Function.update_self]

theorem scene_setWorker (worker' : Worker T) :
    (scene w task worker todo a b k active external stages).setWorker w worker' =
      scene w task worker' todo a b k active external stages := by
  simp only [scene, setWorker, Function.update_idem]

theorem scene_scheduleOn :
    (scene w task worker todo a b k active external stages).scheduleOn w task =
      scene w task (worker.schedule task).1 todo a b k active external
        (.scheduled :: stages) := by
  rw [scheduleOn, scene_workers, scene_setWorker]
  rfl

theorem scene_completeOn :
    (scene w task worker todo a b k active external stages).completeOn w task =
      scene w task worker.complete.1 todo a b k active external (.completed :: stages) := by
  rw [completeOn, scene_workers, scene_setWorker]
  rfl

theorem scene_postStep :
    (scene w task worker todo a b k active external stages).postStep w task none =
      scene w task worker.release (todo ++ [.step w task]) a b k active external stages := by
  rw [postStep, scene_workers, scene_setWorker]
  rfl

/-- Nobody waits, so there is nobody to release. -/
theorem scene_signals (ha : a ≠ .waiting) (hb : b ≠ .waiting) :
    (scene w task worker todo a b k active external stages).Signals none := by
  intro hmem
  rcases List.mem_cons.mp hmem with heq | hmem
  · exact ha heq.symm
  rcases List.mem_cons.mp hmem with heq | hmem
  · exact hb heq.symm
  · exact absurd (List.eq_of_mem_replicate hmem)
      (by simp only [reduceCtorEq, not_false_eq_true])

end Scene

/-- Two tasks are given to a worker. The first thread runs the one, gives the
    pool the other at the end of the job, and is about to destroy the closure;
    the second thread has taken the other task meanwhile. -/
theorem overtaken_reach (w : W) (task : T) (n : Nat) (hn : 2 ≤ n) : ∃ p : Pool W T, Reach n p ∧
    p.threads[0]? = some (.destroying (.step w task)) ∧
    p.threads[1]? = some (.calling (.step w task)) ∧ ¬ Released w p.log := by
  rcases Nat.exists_eq_add_of_le' hn with ⟨k, rfl⟩
  have hstart : Reach (k + 2) (scene w task {} [] .starting .starting k (k + 2) [] []) := by
    rw [← scene_start w task k]
    exact .start
  -- The worker is given a task, and gives it to the pool.
  have hbegun : Reach (k + 2) (scene w task ⟨true, true, []⟩ [] .starting .starting k (k + 2)
      [(w, task)] [.scheduled]) := by
    have hstep := External.begin_ w task task
      (by rw [scene_workers w task {} [] .starting .starting k (k + 2) [] []])
      (by rw [scene_workers]; rfl)
    rw [scene_scheduleOn] at hstep
    exact .external _ _ hstart hstep
  have hqueued : Reach (k + 2) (scene w task ⟨false, true, []⟩ [.step w task] .starting .starting
      k (k + 2) [] [.scheduled]) := by
    have hstep := Internal.finish [] [] w task none rfl
      (scene_signals w task ⟨true, true, []⟩ [] .starting .starting k (k + 2) [(w, task)]
        [.scheduled] (by simp only [ne_eq, reduceCtorEq, not_false_eq_true])
        (by simp only [ne_eq, reduceCtorEq, not_false_eq_true]))
    exact .internal _ _ hbegun (scene_postStep w task ⟨true, true, []⟩ [] .starting .starting k
      (k + 2) [] [.scheduled] ▸ hstep)
  -- The second task has to wait for the first.
  have htwo : Reach (k + 2) (scene w task ⟨false, true, [task]⟩ [.step w task] .starting .starting
      k (k + 2) [] [.scheduled, .scheduled]) := by
    have hstep := External.enqueue w task
      (by rw [scene_workers w task ⟨false, true, []⟩ [.step w task] .starting .starting k (k + 2)
        [] [.scheduled]]) (by rw [scene_workers]; rfl)
    rw [scene_scheduleOn] at hstep
    exact .external _ _ hqueued hstep
  -- The first thread takes the job, and its task returns.
  rcases (⟨_, .internal _ _ htwo (.first 0 rfl)⟩ : ∃ active, Reach (k + 2) (scene w task
      ⟨false, true, [task]⟩ [] (.calling (.step w task)) .starting k active []
      [.started, .scheduled, .scheduled])) with ⟨active, hcalling⟩
  have hreturned : Reach (k + 2) (scene w task ⟨false, true, [task]⟩ []
      (.returned (.step w task)) .starting k active []
      [.returned, .started, .scheduled, .scheduled]) :=
    .internal _ _ hcalling (.return_ 0 _ rfl)
  -- The section at the end of the job gives the pool the other task.
  have hcompleting : Reach (k + 2) (scene w task ⟨true, true, []⟩ [] (.completing w task task)
      .starting k active [] [.completed, .returned, .started, .scheduled, .scheduled]) := by
    have hstep := Internal.beginNext 0 w task task (p := scene w task ⟨false, true, [task]⟩ []
      (.returned (.step w task)) .starting k active [] [.returned, .started, .scheduled,
      .scheduled]) rfl (by rw [scene_workers]) (by rw [scene_workers]; rfl)
    rw [scene_completeOn] at hstep
    exact .internal _ _ hreturned hstep
  have hdestroying : Reach (k + 2) (scene w task ⟨false, true, []⟩ [.step w task]
      (.destroying (.step w task)) .starting k active []
      [.completed, .returned, .started, .scheduled, .scheduled]) := by
    have hstep := Internal.postsNext 0 w task task none rfl
      (scene_signals w task ⟨true, true, []⟩ [] (.completing w task task) .starting k active []
        [.completed, .returned, .started, .scheduled, .scheduled]
        (by simp only [ne_eq, reduceCtorEq, not_false_eq_true])
        (by simp only [ne_eq, reduceCtorEq, not_false_eq_true]))
    exact .internal _ _ hcompleting (scene_postStep w task ⟨true, true, []⟩ []
      (.destroying (.step w task)) .starting k active []
      [.completed, .returned, .started, .scheduled, .scheduled] ▸ hstep)
  -- The second thread takes it before the first has destroyed the closure.
  rcases (⟨_, .internal _ _ hdestroying (.first 1 rfl)⟩ : ∃ active, Reach (k + 2) (scene w task
      ⟨false, true, []⟩ [] (.destroying (.step w task)) (.calling (.step w task)) k active []
      [.started, .completed, .returned, .started, .scheduled, .scheduled])) with ⟨active', hboth⟩
  refine ⟨_, hboth, rfl, rfl, fun hreleased => ?_⟩
  have hnone := hreleased [] _ task rfl
  simp only [List.map_cons, List.map_nil, history, reduceCtorEq, false_and, and_self, if_false,
    if_true, List.nil_append, List.cons_ne_nil, List.nil_eq] at hnone

/-- The pools in which the closure of a task is destroyed before the worker's
    next task starts are those with one thread. -/
theorem released_iff (w : W) (task : T) (n : Nat) :
    (∀ p : Pool W T, Reach n p → ∀ v, Released v p.log) ↔ n ≤ 1 := by
  constructor
  · intro hall
    by_contra hn
    rcases overtaken_reach w task n (by omega) with ⟨p, hreach, -, -, hnot⟩
    exact hnot (hall p hreach w)
  · intro hn p hreach v
    exact (kept_reach v n hn p hreach).released

/-- Two threads and one worker. -/
theorem released_overtaken : ¬ ∀ p : Pool Unit Nat, Reach 2 p → ∀ v, Released v p.log := by
  intro hall
  rcases overtaken_reach () 5 2 (le_refl 2) with ⟨p, hreach, -, -, hnot⟩
  exact hnot (hall p hreach ())

end Pool

end RxCppUniq
