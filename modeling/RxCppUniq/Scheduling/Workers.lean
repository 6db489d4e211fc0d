import Mathlib.Algebra.Group.Prod
import Mathlib.Algebra.Order.Group.Multiset
import RxCppUniq.Base.Scheduler
import RxCppUniq.Theory.Total

/-!
# Workers Serialise their Tasks

What the pool and its threads have in hand of one worker. A task of the worker
is posted while it is in the pool's queue, or about to be put there by a
section that holds the worker's mutex; a thread that runs its job has it in
hand up to the section at the job's end.

A worker is in one of four states: it is idle, or it has one task, which is
posted, running, or has returned. `Serial` says so of a state of the pool,
with the history of the worker up to its task.

## Main definitions

* `Share`: What is in hand of a worker.
* `Pool.history`: The tasks of a worker that have got to a stage.
* `Turn`: The four states of a worker.
* `Serial`: The invariant.
* `Serialised`: What the invariant is for.

## Theorems

* `Serial.external`, `Serial.internal`: The steps of the pool.
* `workers_serialise`: Every worker of a reachable pool serialises its tasks.
-/

namespace RxCppUniq

open Theory

variable {W T : Type} [DecidableEq W]

/-- What is in hand of a worker: the tasks posted, those running, and those
    that have returned. -/
abbrev Share (T : Type) := Multiset T × Multiset T × Multiset T

/-- The task, if it is one of the worker `w`. -/
def only (w v : W) (task : T) : Multiset T :=
  if v = w then {task} else 0

namespace Job

/-- The task of a job, if it is one of the worker `w`. -/
def held (w : W) : Job W T → Multiset T
  | .direct _ => 0
  | .step v task => only w v task

/-- A job in the queue. -/
def share (w : W) (job : Job W T) : Share T :=
  (job.held w, 0, 0)

end Job

/-- What a thread has in hand of the worker `w`. -/
def Thread.share (w : W) : Thread W T → Share T
  | .starting => 0
  | .waiting => 0
  | .released => 0
  | .calling job => (0, job.held w, 0)
  | .posting job v next => (only w v next, job.held w, 0)
  | .returned job => (0, 0, job.held w)
  | .completing v _ next => (only w v next, 0, 0)
  | .destroying _ => 0
  | .ready => 0

namespace Pool

/-- What is in hand of the worker `w`. -/
def share (w : W) (p : Pool W T) : Share T :=
  total (Thread.share w) p.threads + total (Job.share w) p.todo +
    total (fun c => (only w c.1 c.2, 0, 0)) p.external

/-- The tasks of the worker `w` that have got to a stage, in order. -/
def history (stage : Stage) (w : W) (log : List (Stage × Job W T)) : List T :=
  match log with
  | [] => []
  | (_, .direct _) :: log => history stage w log
  | (s, .step v task) :: log =>
      if s = stage ∧ v = w then history stage w log ++ [task] else history stage w log

/-- Whenever a task of the worker `w` was started, all before it had
    returned. -/
def Ordered (w : W) (log : List (Stage × Job W T)) : Prop :=
  ∀ new old task, log = new ++ (.started, .step w task) :: old →
    history .returned w old = history .started w old

variable (w : W) (p : Pool W T)

theorem history_step (stage : Stage) (task : T) (log : List (Stage × Job W T)) :
    history stage w ((stage, .step w task) :: log) = history stage w log ++ [task] := by
  rw [history, if_pos ⟨rfl, rfl⟩]

theorem history_other (stage s : Stage) (job : Job W T) (log : List (Stage × Job W T))
    (h : ∀ task, job = .step w task → s ≠ stage) :
    history stage w ((s, job) :: log) = history stage w log := by
  cases job with
  | direct task => rfl
  | step v task =>
      rw [history, if_neg]
      rintro ⟨rfl, rfl⟩
      exact h task rfl rfl

theorem Ordered.cons {log : List (Stage × Job W T)} (h : Ordered w log) (s : Stage)
    (job : Job W T) (hs : s = .started → (∀ task, job ≠ .step w task) ∨
      history .returned w log = history .started w log) : Ordered w ((s, job) :: log) := by
  intro new old task heq
  cases new with
  | nil =>
      rw [List.nil_append, List.cons.injEq, Prod.mk.injEq] at heq
      rcases hs heq.1.1 with hne | hall
      · exact absurd heq.1.2 (hne task)
      · exact heq.2 ▸ hall
  | cons e new =>
      rw [List.cons_append, List.cons.injEq] at heq
      exact h new old task heq.2

theorem share_setThread (i : Nat) (a b : Thread W T) (h : p.threads[i]? = some a) :
    (p.setThread i b).share w + a.share w = p.share w + b.share w := by
  have hset := total_set (Thread.share w) p.threads i a b h
  simp only [share, setThread]
  rw [add_right_comm, add_right_comm (total (Thread.share w) (p.threads.set i b)), hset,
    add_right_comm (total (Thread.share w) p.threads), add_right_comm]

/-- A thread that has the same in hand at its new place. -/
theorem share_setThread_eq (i : Nat) (a b : Thread W T) (h : p.threads[i]? = some a)
    (hab : a.share w = b.share w) : (p.setThread i b).share w = p.share w := by
  have hset := share_setThread w p i a b h
  rw [hab] at hset
  exact add_right_cancel hset

@[simp] theorem share_note (stage : Stage) (job : Job W T) :
    (p.note stage job).share w = p.share w := rfl

@[simp] theorem share_setWorker (v : W) (worker : Worker T) :
    (p.setWorker v worker).share w = p.share w := rfl

/-- Posting a job puts it in the queue; the thread that is released has
    nothing in hand. -/
theorem share_post (job : Job W T) (who : Option Nat) (h : p.Signals who) :
    (p.post job who).share w = p.share w + job.share w := by
  have hthreads : total (Thread.share w) (p.post job who).threads =
      total (Thread.share w) p.threads := by
    cases who with
    | none => rfl
    | some i =>
        have hset := total_set (Thread.share w) p.threads i .waiting .released h
        rwa [Thread.share, Thread.share, add_zero, add_zero] at hset
  have htodo : total (Job.share w) (p.post job who).todo =
      total (Job.share w) p.todo + job.share w := by
    simp only [post, total_append, total_cons, total_nil, add_zero]
  have hexternal : (p.post job who).external = p.external := rfl
  rw [share, share, hthreads, htodo, hexternal, ← add_assoc, add_right_comm]

/-- What a thread has in hand is a part of the whole. -/
theorem share_split (i : Nat) (a : Thread W T) (h : p.threads[i]? = some a) :
    ∃ rest, p.share w = rest + a.share w ∧ ∀ b, (p.setThread i b).share w = rest + b.share w := by
  have hrest := share_setThread w p i a .ready h
  refine ⟨(p.setThread i .ready).share w, ?_, fun b => ?_⟩
  · rw [hrest, Thread.share, add_zero]
  · have hset := share_setThread w p i a b h
    rw [Thread.share, add_zero] at hrest
    rw [← hrest, add_right_comm] at hset
    exact add_right_cancel hset

end Pool

/-- The states of a worker: idle, or with one task, which is posted, running,
    or has returned. -/
inductive Turn (T : Type) where
  | idle
  | posted (task : T)
  | running (task : T)
  | returned (task : T)

namespace Turn

@[simp] def share : Turn T → Share T
  | .idle => 0
  | .posted task => ({task}, 0, 0)
  | .running task => (0, {task}, 0)
  | .returned task => (0, 0, {task})

@[simp] def task : Turn T → List T
  | .idle => []
  | .posted task => [task]
  | .running task => [task]
  | .returned task => [task]

@[simp] def started : Turn T → List T
  | .idle => []
  | .posted _ => []
  | .running task => [task]
  | .returned task => [task]

@[simp] def back : Turn T → List T
  | .idle => []
  | .posted _ => []
  | .running _ => []
  | .returned task => [task]

@[simp] def isIdle : Turn T → Bool
  | .idle => true
  | .posted _ => false
  | .running _ => false
  | .returned _ => false

end Turn

/-- A multiset with one task, of which one task is split off. -/
theorem eq_of_add_singleton {rest : Multiset T} {task task' : T}
    (h : rest + {task} = {task'}) : task' = task ∧ rest = 0 := by
  have hcard := congrArg Multiset.card h
  rw [Multiset.card_add, Multiset.card_singleton, Multiset.card_singleton] at hcard
  have hrest : rest = 0 := Multiset.card_eq_zero.mp (by omega)
  rw [hrest, zero_add] at h
  exact ⟨(Multiset.singleton_inj.mp h).symm, hrest⟩

theorem add_singleton_ne_zero {rest : Multiset T} {task : T} (h : rest + {task} = 0) : False := by
  have hcard := congrArg Multiset.card h
  rw [Multiset.card_add, Multiset.card_singleton, Multiset.card_zero] at hcard
  omega

namespace Turn

variable {rest : Share T} {task : T} (turn : Turn T)

/-- A task that is posted is the only one in hand. -/
theorem eq_posted (h : turn.share = rest + ({task}, 0, 0)) :
    turn = .posted task ∧ rest = 0 := by
  rcases rest with ⟨a, b, c⟩
  cases turn <;> simp only [share, Prod.mk_add_mk, add_zero, Prod.mk.injEq, Prod.zero_eq_mk] at h
  case posted t =>
    rcases eq_of_add_singleton h.1.symm with ⟨rfl, rfl⟩
    rw [← h.2.1, ← h.2.2]
    exact ⟨rfl, rfl⟩
  all_goals exact (add_singleton_ne_zero h.1.symm).elim

/-- A task that is running is the only one in hand. -/
theorem eq_running (h : turn.share = rest + (0, {task}, 0)) :
    turn = .running task ∧ rest = 0 := by
  rcases rest with ⟨a, b, c⟩
  cases turn <;> simp only [share, Prod.mk_add_mk, add_zero, Prod.mk.injEq, Prod.zero_eq_mk] at h
  case running t =>
    rcases eq_of_add_singleton h.2.1.symm with ⟨rfl, rfl⟩
    rw [← h.1, ← h.2.2]
    exact ⟨rfl, rfl⟩
  all_goals exact (add_singleton_ne_zero h.2.1.symm).elim

/-- A task that has returned is the only one in hand. -/
theorem eq_returned (h : turn.share = rest + (0, 0, {task})) :
    turn = .returned task ∧ rest = 0 := by
  rcases rest with ⟨a, b, c⟩
  cases turn <;> simp only [share, Prod.mk_add_mk, add_zero, Prod.mk.injEq, Prod.zero_eq_mk] at h
  case returned t =>
    rcases eq_of_add_singleton h.2.2.symm with ⟨rfl, rfl⟩
    rw [← h.1, ← h.2.1]
    exact ⟨rfl, rfl⟩
  all_goals exact (add_singleton_ne_zero h.2.2.symm).elim

end Turn

open Pool

/-- The worker `w` is at a turn, after the tasks in `finished`. -/
structure Serial (w : W) (p : Pool W T) (turn : Turn T) (finished : List T) : Prop where
  share : p.share w = turn.share
  running : (p.workers w).running = !turn.isIdle
  steps : turn.isIdle = true → (p.workers w).steps = []
  scheduled : history .scheduled w p.log = finished ++ turn.task ++ (p.workers w).steps
  started : history .started w p.log = finished ++ turn.started
  returned : history .returned w p.log = finished ++ turn.back
  completed : history .completed w p.log = finished
  ordered : Ordered w p.log

namespace Serial

variable {w : W} {p q : Pool W T} {turn : Turn T} {finished : List T}

theorem start (n : Nat) : Serial w (start n : Pool W T) .idle [] where
  share := by
    have hthreads : total (Thread.share w)
        (List.replicate n (Thread.starting : Thread W T)) = 0 :=
      total_eq_zero _ _ fun t ht => (List.eq_of_mem_replicate ht) ▸ rfl
    simp only [Pool.share, Pool.start, hthreads, total_nil, add_zero, Turn.share]
  running := rfl
  steps _ := rfl
  scheduled := rfl
  started := rfl
  returned := rfl
  completed := rfl
  ordered new old task h := absurd h.symm (by simp only [Pool.start, List.append_eq_nil_iff,
    reduceCtorEq, and_false, not_false_eq_true])

/-- Nothing has changed for the worker. -/
theorem same (h : Serial w p turn finished) (hshare : q.share w = p.share w)
    (hrunning : (q.workers w).running = (p.workers w).running)
    (hsteps : (q.workers w).steps = (p.workers w).steps) (hlog : q.log = p.log) :
    Serial w q turn finished where
  share := hshare.trans h.share
  running := hrunning.trans h.running
  steps hidle := hsteps.trans (h.steps hidle)
  scheduled := by rw [hlog, hsteps, h.scheduled]
  started := by rw [hlog, h.started]
  returned := by rw [hlog, h.returned]
  completed := by rw [hlog, h.completed]
  ordered := hlog ▸ h.ordered

/-- A step that only concerns a job of the pool or of another worker, or
    destroys a closure. -/
theorem skip (h : Serial w p turn finished) (stage : Stage) (job : Job W T)
    (hjob : ∀ task, job = .step w task → stage = .destroyed) (hshare : q.share w = p.share w)
    (hrunning : (q.workers w).running = (p.workers w).running)
    (hsteps : (q.workers w).steps = (p.workers w).steps)
    (hlog : q.log = (stage, job) :: p.log) : Serial w q turn finished := by
  have hsame : ∀ s, s ≠ .destroyed → history s w q.log = history s w p.log := by
    intro s hs
    rw [hlog]
    exact history_other w s stage job p.log fun task htask heq => hs (heq ▸ hjob task htask)
  refine ⟨hshare.trans h.share, hrunning.trans h.running, fun hidle => hsteps.trans (h.steps hidle),
    ?_, ?_, ?_, ?_, ?_⟩
  · rw [hsame _ (by decide), hsteps, h.scheduled]
  · rw [hsame _ (by decide), h.started]
  · rw [hsame _ (by decide), h.returned]
  · rw [hsame _ (by decide), h.completed]
  · rw [hlog]
    refine h.ordered.cons w stage job fun hstage => Or.inl fun task htask => ?_
    exact absurd ((hjob task htask).symm.trans hstage) (by decide)

/-- What a worker is about to give the pool. -/
def giving (next : Option T) : Share T :=
  match next with
  | none => 0
  | some task => ({task}, 0, 0)

/-- `MaybeRunNext` at the end of a section of a worker that has no task. -/
theorem next (worker : Worker T) (hrunning : worker.running = false) :
    ∃ turn : Turn T, turn.share = giving worker.maybeRunNext.2 ∧ turn.started = [] ∧
      turn.back = [] ∧ worker.maybeRunNext.1.running = !turn.isIdle ∧
      (turn.isIdle = true → worker.maybeRunNext.1.steps = []) ∧
      turn.task ++ worker.maybeRunNext.1.steps = worker.steps := by
  unfold Worker.maybeRunNext
  rw [hrunning, if_neg Bool.false_ne_true]
  cases hsteps : worker.steps with
  | nil => exact ⟨.idle, rfl, rfl, rfl, by simp only [hrunning, Turn.isIdle, Bool.not_true],
      fun _ => hsteps, by simp only [hsteps, Turn.task, List.append_nil]⟩
  | cons task steps => exact ⟨.posted task, rfl, rfl, rfl, rfl,
      fun hidle => absurd hidle Bool.false_ne_true, rfl⟩

/-- A task is scheduled on the worker. -/
theorem schedule (h : Serial w p turn finished) (task : T)
    (hworker : q.workers w = ((p.workers w).schedule task).1)
    (hlog : q.log = (.scheduled, .step w task) :: p.log)
    (hshare : q.share w = p.share w + giving ((p.workers w).schedule task).2) :
    ∃ turn', Serial w q turn' finished := by
  have hother : ∀ s, s ≠ .scheduled → history s w q.log = history s w p.log := by
    intro s hs
    rw [hlog]
    exact history_other w s _ _ p.log fun _ _ heq => hs heq.symm
  have hscheduled : history .scheduled w q.log = finished ++ turn.task ++
      ((p.workers w).steps ++ [task]) := by
    rw [hlog, history_step, h.scheduled, List.append_assoc]
  have hordered : Ordered w q.log := by
    rw [hlog]
    exact h.ordered.cons w _ _ fun hstage => absurd hstage (by decide)
  by_cases hidle : turn.isIdle = true
  · -- The worker had no task and takes this one at once.
    have hturn : turn = .idle := by
      cases turn <;> simp only [Turn.isIdle, Bool.false_eq_true] at hidle
      rfl
    subst hturn
    rcases next { p.workers w with steps := (p.workers w).steps ++ [task] } h.running with
      ⟨turn', hshare', hstarted, hback, hrunning, hsteps, htask⟩
    refine ⟨turn', ?_, ?_, ?_, ?_, ?_, ?_, ?_, hordered⟩
    · rw [hshare, h.share, Turn.share, zero_add, hshare']
      rfl
    · rw [hworker]
      exact hrunning
    · rw [hworker]
      exact hsteps
    · rw [hscheduled, hworker, Turn.task, List.append_nil, List.append_assoc]
      exact congrArg (finished ++ ·) htask.symm
    · rw [hother _ (by decide), h.started, hstarted, Turn.started]
    · rw [hother _ (by decide), h.returned, hback, Turn.back]
    · rw [hother _ (by decide), h.completed]
  · -- The worker is running, the task waits.
    have hrunning := h.running
    rw [Bool.not_eq_true] at hidle
    rw [hidle, Bool.not_false] at hrunning
    have hnone : (p.workers w).schedule task =
        ({ p.workers w with steps := (p.workers w).steps ++ [task] }, none) := by
      simp only [Worker.schedule, Worker.maybeRunNext, hrunning, if_true]
    rw [hnone] at hworker hshare
    refine ⟨turn, ?_, ?_, ?_, ?_, ?_, ?_, ?_, hordered⟩
    · rw [hshare, giving, add_zero, h.share]
    · rw [hworker, hidle]
      exact hrunning
    · exact fun hyes => absurd (hidle.symm.trans hyes) Bool.false_ne_true
    · rw [hscheduled, hworker]
    · rw [hother _ (by decide), h.started]
    · rw [hother _ (by decide), h.returned]
    · rw [hother _ (by decide), h.completed]

/-- The section at the end of the worker's job. -/
theorem complete (task : T) (h : Serial w p (.returned task) finished)
    (hworker : q.workers w = (p.workers w).complete.1)
    (hlog : q.log = (.completed, .step w task) :: p.log)
    (hshare : q.share w = giving (p.workers w).complete.2) :
    ∃ turn', Serial w q turn' (finished ++ [task]) := by
  have hother : ∀ s, s ≠ .completed → history s w q.log = history s w p.log := by
    intro s hs
    rw [hlog]
    exact history_other w s _ _ p.log fun _ _ heq => hs heq.symm
  rcases next { p.workers w with running := false } rfl with
    ⟨turn', hshare', hstarted, hback, hrunning, hsteps, htask⟩
  refine ⟨turn', ?_, ?_, ?_, ?_, ?_, ?_, ?_, ?_⟩
  · rw [hshare, hshare']
    rfl
  · rw [hworker]
    exact hrunning
  · rw [hworker]
    exact hsteps
  · rw [hother _ (by decide), h.scheduled, hworker, List.append_assoc (finished ++ [task])]
    exact congrArg (finished ++ [task] ++ ·) htask.symm
  · rw [hother _ (by decide), h.started, hstarted, List.append_nil, Turn.started]
  · rw [hother _ (by decide), h.returned, hback, List.append_nil, Turn.back]
  · rw [hlog, history_step, h.completed]
  · rw [hlog]
    exact h.ordered.cons w _ _ fun hstage => absurd hstage (by decide)

/-- A thread takes the worker's job from the queue. -/
theorem take (task : T) (h : Serial w p (.posted task) finished)
    (hworkers : q.workers = p.workers) (hlog : q.log = (.started, .step w task) :: p.log)
    (hshare : q.share w = (0, {task}, 0)) : Serial w q (.running task) finished := by
  have hother : ∀ s, s ≠ .started → history s w q.log = history s w p.log := by
    intro s hs
    rw [hlog]
    exact history_other w s _ _ p.log fun _ _ heq => hs heq.symm
  refine ⟨hshare, ?_, fun hidle => absurd hidle Bool.false_ne_true, ?_, ?_, ?_, ?_, ?_⟩
  · rw [hworkers]
    exact h.running
  · rw [hother _ (by decide), hworkers, h.scheduled]
    rfl
  · rw [hlog, history_step, h.started, Turn.started, List.append_nil, Turn.started]
  · rw [hother _ (by decide), h.returned]
    rfl
  · rw [hother _ (by decide), h.completed]
  · rw [hlog]
    refine h.ordered.cons w _ _ fun _ => Or.inr ?_
    rw [h.returned, h.started]
    rfl

/-- The worker's task returns. -/
theorem back (task : T) (h : Serial w p (.running task) finished)
    (hworkers : q.workers = p.workers) (hlog : q.log = (.returned, .step w task) :: p.log)
    (hshare : q.share w = (0, 0, {task})) : Serial w q (.returned task) finished := by
  have hother : ∀ s, s ≠ .returned → history s w q.log = history s w p.log := by
    intro s hs
    rw [hlog]
    exact history_other w s _ _ p.log fun _ _ heq => hs heq.symm
  refine ⟨hshare, ?_, fun hidle => absurd hidle Bool.false_ne_true, ?_, ?_, ?_, ?_, ?_⟩
  · rw [hworkers]
    exact h.running
  · rw [hother _ (by decide), hworkers, h.scheduled]
    rfl
  · rw [hother _ (by decide), h.started]
    rfl
  · rw [hlog, history_step, h.returned, Turn.back, List.append_nil, Turn.back]
  · rw [hother _ (by decide), h.completed]
  · rw [hlog]
    exact h.ordered.cons w _ _ fun hstage => absurd hstage (by decide)

end Serial

section Steps

variable (w : W) {p q : Pool W T}

theorem only_self (task : T) : only w w task = {task} := if_pos rfl

theorem only_other (v : W) (task : T) (h : v ≠ w) : only w v task = 0 := if_neg h

theorem setWorker_self (worker : Worker T) : (p.setWorker w worker).workers w = worker :=
  Function.update_self _ _ _

theorem setWorker_other (v : W) (worker : Worker T) (h : v ≠ w) :
    (p.setWorker v worker).workers w = p.workers w :=
  Function.update_of_ne (Ne.symm h) _ _

/-- Ending a section leaves all but the mutex as it is. -/
theorem release_same (v : W) :
    ((p.setWorker v (p.workers v).release).workers w).running = (p.workers w).running ∧
      ((p.setWorker v (p.workers v).release).workers w).steps = (p.workers w).steps := by
  by_cases hv : v = w
  · subst hv
    rw [setWorker_self]
    exact ⟨rfl, rfl⟩
  · rw [setWorker_other w v _ hv]
    exact ⟨rfl, rfl⟩

theorem share_postStep (v : W) (next : T) (who : Option Nat) (h : p.Signals who) :
    (p.postStep v next who).share w = p.share w + (only w v next, 0, 0) :=
  share_post w (p.setWorker v (p.workers v).release) (.step v next) who h

/-- There is a turn the worker is at. -/
def Serialises (w : W) (p : Pool W T) : Prop :=
  ∃ turn finished, Serial w p turn finished

/-- The nested call of the pool puts in the queue what somebody has in hand
    already. -/
theorem Serialises.postStep (h : Serialises w p) (mid : Pool W T) (v : W) (next : T)
    (who : Option Nat) (hsignals : mid.Signals who) (hworkers : mid.workers = p.workers)
    (hlog : mid.log = p.log) (hshare : p.share w = mid.share w + (only w v next, 0, 0)) :
    Serialises w (mid.postStep v next who) := by
  rcases h with ⟨turn, finished, h⟩
  have hrelease := release_same (p := mid) w v
  refine ⟨turn, finished, h.same ?_ ?_ ?_ hlog⟩
  · rw [share_postStep w v next who hsignals, hshare]
  · rw [← hworkers]
    exact hrelease.1
  · rw [← hworkers]
    exact hrelease.2

/-- A task is scheduled on some worker, and the caller has in hand what that
    worker is about to give the pool. -/
theorem Serialises.schedule (h : Serialises w p) (v : W) (task : T)
    (hworkers : q.workers = (p.scheduleOn v task).workers)
    (hlog : q.log = (.scheduled, .step v task) :: p.log)
    (hself : v = w → q.share w = p.share w + Serial.giving ((p.workers v).schedule task).2)
    (hother : v ≠ w → q.share w = p.share w) : Serialises w q := by
  rcases h with ⟨turn, finished, h⟩
  by_cases hv : v = w
  · subst hv
    rcases h.schedule task (q := q) (by rw [hworkers]; exact setWorker_self _ _) hlog (hself rfl)
      with ⟨turn', h'⟩
    exact ⟨turn', finished, h'⟩
  · have hsame : q.workers w = p.workers w := by
      rw [hworkers]
      exact setWorker_other w v _ hv
    refine ⟨turn, finished, h.skip .scheduled (.step v task) (fun task' heq => ?_) (hother hv)
      (congrArg _ hsame) (congrArg _ hsame) hlog⟩
    exact absurd (Job.step.inj heq).1 hv

/-- A job of the pool itself is scheduled. -/
theorem Serialises.direct (h : Serialises w p) (task : T) (who : Option Nat)
    (hsignals : p.Signals who) :
    Serialises w ((p.note .scheduled (.direct task)).post (.direct task) who) := by
  rcases h with ⟨turn, finished, h⟩
  refine ⟨turn, finished, h.skip .scheduled (.direct task) (fun task' heq => ?_) ?_ rfl rfl rfl⟩
  · exact absurd heq (by simp only [reduceCtorEq, not_false_eq_true])
  · exact (share_post w (p.note .scheduled (.direct task)) (.direct task) who hsignals).trans
      (add_zero _)

theorem Serialises.external (h : Serialises w p) (hstep : External p q) : Serialises w q := by
  cases hstep with
  | direct task who signals => exact h.direct w task who signals
  | enqueue v task free none =>
      refine h.schedule w v task rfl rfl (fun _ => ?_) fun _ => rfl
      rw [none]
      exact (add_zero _).symm
  | begin_ v task next free some =>
      have hshare : Pool.share w { p.scheduleOn v task with external := (v, next) :: p.external } =
          p.share w + (only w v next, 0, 0) := by
        simp only [Pool.share, total_cons]
        rw [add_comm (only w v next, 0, 0), ← add_assoc]
        rfl
      refine h.schedule w v task rfl rfl (fun hv => ?_) fun hv => ?_
      · rw [some, hshare, hv, only_self]
        rfl
      · rw [hshare, only_other w v next hv]
        exact add_zero _

/-- A thread looks for a job. -/
theorem Serialises.look (h : Serialises w p) (i : Nat) (a : Thread W T) (active : Nat)
    (phase : p.threads[i]? = some a) (hnone : a.share w = 0) :
    Serialises w (p.look i active) := by
  rcases h with ⟨turn, finished, h⟩
  unfold Pool.look
  cases htodo : p.todo with
  | nil =>
      refine ⟨turn, finished, h.same ?_ rfl rfl rfl⟩
      exact share_setThread_eq w p i a .waiting phase hnone
  | cons job todo =>
      -- The job goes from the queue to the thread.
      have hset := total_set (Thread.share w) p.threads i a (.calling job) phase
      rw [hnone, add_zero, Thread.share] at hset
      have hp : p.share w = (total (Thread.share w) p.threads + total (Job.share w) todo +
          total (fun c => (only w c.1 c.2, 0, 0)) p.external) + (job.held w, 0, 0) := by
        rw [Pool.share, htodo, total_cons, Job.share, add_comm (job.held w, 0, 0), ← add_assoc,
          add_right_comm]
      have hq : Pool.share w (note { p.setThread i (.calling job) with
          todo := todo, activeCount := (active + 1) % 2 ^ 64 } .started job) =
          (total (Thread.share w) p.threads + total (Job.share w) todo +
            total (fun c => (only w c.1 c.2, 0, 0)) p.external) + (0, job.held w, 0) := by
        change total (Thread.share w) (p.threads.set i (.calling job)) +
          total (Job.share w) todo + total (fun c => (only w c.1 c.2, 0, 0)) p.external = _
        rw [hset, add_right_comm _ (0, job.held w, 0), add_right_comm _ (0, job.held w, 0)]
      by_cases hjob : ∃ task, job = .step w task
      · rcases hjob with ⟨task, rfl⟩
        rw [Job.held, only_self] at hp hq
        rcases turn.eq_posted (h.share.symm.trans hp) with ⟨rfl, hrest⟩
        rw [hrest, zero_add] at hq
        exact ⟨.running task, finished, h.take task rfl rfl hq⟩
      · have hheld : job.held w = 0 := by
          cases job with
          | direct task => rfl
          | step v task =>
              exact only_other w v task fun hv => hjob ⟨task, by rw [hv]⟩
        rw [hheld] at hp hq
        refine ⟨turn, finished, h.skip .started job (fun task heq => ?_) (hq.trans hp.symm)
          rfl rfl rfl⟩
        exact absurd ⟨task, heq⟩ hjob

/-- The task of a job returns. -/
theorem Serialises.return_ (h : Serialises w p) (i : Nat) (job : Job W T)
    (phase : p.threads[i]? = some (.calling job)) :
    Serialises w ((p.setThread i (.returned job)).note .returned job) := by
  rcases h with ⟨turn, finished, h⟩
  rcases share_split w p i _ phase with ⟨rest, hp, hq⟩
  have hback := hq (.returned job)
  by_cases hjob : ∃ task, job = .step w task
  · rcases hjob with ⟨task, rfl⟩
    simp only [Thread.share, Job.held, only_self] at hp hback
    rcases turn.eq_running (h.share.symm.trans hp) with ⟨rfl, hrest⟩
    rw [hrest, zero_add] at hback
    exact ⟨.returned task, finished, h.back task rfl rfl hback⟩
  · have hheld : job.held w = 0 := by
      cases job with
      | direct task => rfl
      | step v task => exact only_other w v task fun hv => hjob ⟨task, by rw [hv]⟩
    simp only [Thread.share, hheld] at hp hback
    refine ⟨turn, finished, h.skip .returned job (fun task heq => ?_) (hback.trans hp.symm)
      rfl rfl rfl⟩
    exact absurd ⟨task, heq⟩ hjob

/-- The section at the end of a worker's job, after which the thread has in
    hand what the worker is about to give the pool. -/
theorem Serialises.complete (h : Serialises w p) (i : Nat) (v : W) (task : T) (b : Thread W T)
    (phase : p.threads[i]? = some (.returned (.step v task)))
    (hself : v = w → b.share w = Serial.giving (p.workers v).complete.2)
    (hother : v ≠ w → b.share w = 0) :
    Serialises w ((p.completeOn v task).setThread i b) := by
  rcases h with ⟨turn, finished, h⟩
  rcases share_split w p i _ phase with ⟨rest, hp, hq⟩
  have hnext : Pool.share w ((p.completeOn v task).setThread i b) = rest + b.share w := hq b
  by_cases hv : v = w
  · subst hv
    rw [Thread.share, Job.held, only_self] at hp
    rcases turn.eq_returned (h.share.symm.trans hp) with ⟨rfl, hrest⟩
    rw [hrest, zero_add, hself rfl] at hnext
    rcases h.complete (q := (p.completeOn v task).setThread i b) task (setWorker_self _ _) rfl hnext
      with ⟨turn', h'⟩
    exact ⟨turn', finished ++ [task], h'⟩
  · have hsame : ((p.completeOn v task).setThread i b).workers w = p.workers w :=
      setWorker_other w v _ hv
    rw [Thread.share, Job.held, only_other w v task hv] at hp
    rw [hother hv] at hnext
    refine ⟨turn, finished, h.skip .completed (.step v task) (fun task' heq => ?_)
      (hnext.trans hp.symm) (congrArg _ hsame) (congrArg _ hsame) rfl⟩
    exact absurd (Job.step.inj heq).1 hv

theorem Serialises.internal (h : Serialises w p) (hstep : Internal p q) : Serialises w q := by
  cases hstep with
  | finish before after v next who call signals =>
      refine h.postStep w { p with external := before ++ after } v next who signals rfl rfl ?_
      simp only [Pool.share, call, total_append, total_cons]
      rw [← add_assoc, ← add_assoc, add_right_comm _ (only w v next, 0, 0)]
      rw [add_assoc _ (total _ before), add_right_comm]
  | wake i phase =>
      rcases h with ⟨turn, finished, h⟩
      exact ⟨turn, finished, h.same (share_setThread_eq w p i _ _ phase rfl) rfl rfl rfl⟩
  | first i phase => exact h.look w i .starting _ phase rfl
  | again i phase => exact h.look w i .ready _ phase rfl
  | relook i phase => exact h.look w i .released _ phase rfl
  | direct i job task who phase signals => exact h.direct w task who signals
  | enqueue i job v task phase free none =>
      refine h.schedule w v task rfl rfl (fun _ => ?_) fun _ => rfl
      rw [none]
      exact (add_zero _).symm
  | begin_ i job v task next phase free some =>
      rcases share_split w p i _ phase with ⟨rest, hp, hq⟩
      have hshare : Pool.share w ((p.scheduleOn v task).setThread i (.posting job v next)) =
          p.share w + (only w v next, 0, 0) := by
        rw [hp, add_assoc]
        exact (hq (.posting job v next)).trans (by simp only [Thread.share, Prod.mk_add_mk,
          zero_add, add_zero])
      refine h.schedule w v task rfl rfl (fun hv => ?_) fun hv => ?_
      · rw [some, hshare, hv, only_self]
        rfl
      · rw [hshare, only_other w v next hv]
        exact add_zero _
  | posts i job v next who phase signals =>
      rcases share_split w p i _ phase with ⟨rest, hp, hq⟩
      refine h.postStep w (p.setThread i (.calling job)) v next who
        (signals.setThread i _ _ phase (by simp only [ne_eq, reduceCtorEq, not_false_eq_true])
          (by simp only [ne_eq, reduceCtorEq, not_false_eq_true])) rfl rfl ?_
      rw [hp, hq, add_assoc]
      simp only [Thread.share, Prod.mk_add_mk, zero_add, add_zero]
  | return_ i job phase => exact h.return_ w i job phase
  | completeDirect i task phase =>
      rcases h with ⟨turn, finished, h⟩
      refine ⟨turn, finished, h.skip .completed (.direct task) (fun task' heq => ?_)
        (share_setThread_eq w p i _ _ phase rfl) rfl rfl rfl⟩
      exact absurd heq (by simp only [reduceCtorEq, not_false_eq_true])
  | complete i v task phase free none =>
      refine h.complete w i v task _ phase (fun _ => ?_) fun _ => rfl
      rw [none]
      rfl
  | beginNext i v task next phase free some =>
      refine h.complete w i v task _ phase (fun hv => ?_) fun hv => ?_
      · rw [some, hv, Thread.share, only_self]
        rfl
      · rw [Thread.share, only_other w v next hv]
        rfl
  | postsNext i v task next who phase signals =>
      rcases share_split w p i _ phase with ⟨rest, hp, hq⟩
      refine h.postStep w (p.setThread i (.destroying (.step v task))) v next who
        (signals.setThread i _ _ phase (by simp only [ne_eq, reduceCtorEq, not_false_eq_true])
          (by simp only [ne_eq, reduceCtorEq, not_false_eq_true])) rfl rfl ?_
      rw [hp, hq, add_assoc]
      simp only [Thread.share, zero_add]
  | destroy i job phase =>
      rcases h with ⟨turn, finished, h⟩
      exact ⟨turn, finished, h.skip .destroyed job (fun _ _ => rfl)
        (share_setThread_eq w p i _ _ phase rfl) rfl rfl rfl⟩

end Steps

/-- What it is for a worker to serialise its tasks. -/
structure Serialised (w : W) (p : Pool W T) : Prop where
  /-- At most one task of the worker is posted to the pool or running. -/
  atMostOne : (p.share w).1.card + (p.share w).2.1.card + (p.share w).2.2.card ≤ 1
  /-- The flag says whether there is one, whose section at the end has not
      been entered. -/
  running_iff : (p.workers w).running = true ↔ p.share w ≠ 0
  steps : (p.workers w).steps ≠ [] → (p.workers w).running = true
  /-- The tasks are started in the order in which they were scheduled. -/
  inOrder : history .started w p.log <+: history .scheduled w p.log
  /-- When a task was started, all tasks started before it had returned. -/
  oneByOne : Ordered w p.log

theorem Serial.serialised {w : W} {p : Pool W T} {turn : Turn T} {finished : List T}
    (h : Serial w p turn finished) : Serialised w p := by
  have hstarted : turn.started <+: turn.task := by
    cases turn <;> simp only [Turn.started, Turn.task, List.nil_prefix, List.prefix_refl]
  refine ⟨?_, ?_, fun hne => ?_, ?_, h.ordered⟩
  · rw [h.share]
    cases turn <;> simp
  · rw [h.running, h.share]
    cases turn <;> simp
  · rw [h.running]
    cases hidle : turn.isIdle with
    | true => exact absurd (h.steps hidle) hne
    | false => rfl
  · rw [h.started, h.scheduled, List.append_assoc]
    exact List.prefix_append_right_inj _ |>.mpr (hstarted.trans (List.prefix_append _ _))

theorem serialises_reach (w : W) (n : Nat) (p : Pool W T) (h : Reach n p) : Serialises w p := by
  induction h with
  | start => exact ⟨.idle, [], .start n⟩
  | external p next _ hstep ih => exact ih.external w hstep
  | internal p next _ hstep ih => exact ih.internal w hstep

/-- Every worker of a reachable pool serialises its tasks. -/
theorem workers_serialise (w : W) (n : Nat) (p : Pool W T) (h : Reach n p) : Serialised w p := by
  rcases serialises_reach w n p h with ⟨turn, finished, hserial⟩
  exact hserial.serialised

/-- Two tasks of one worker and one of another, in a pool of two threads. The
    second task is taken up while the other worker's task is running. -/
theorem busy_reach : ∃ p : Pool Bool Nat, Reach 2 p ∧
    p.threads = [.calling (.step false 2), .calling (.step true 3)] ∧
    history .started false p.log = [1, 2] ∧ history .completed false p.log = [1] := by
  have hone : Reach 2 _ :=
    .external _ _ (.start (W := Bool) (T := Nat)) (.begin_ false 1 1 rfl rfl)
  have hposted := Reach.internal _ _ hone
    (.finish [] [] false 1 none rfl (by unfold Signals; decide))
  have htwo := Reach.external _ _ hposted (.enqueue false 2 rfl rfl)
  have hother := Reach.external _ _ htwo (.begin_ true 3 3 rfl rfl)
  have hboth := Reach.internal _ _ hother
    (.finish [] [] true 3 none rfl (by unfold Signals; decide))
  have hfirst := Reach.internal _ _ hboth (.first 0 rfl)
  have hreturned := Reach.internal _ _ hfirst (.return_ 0 (.step false 1) rfl)
  have hsecond := Reach.internal _ _ hreturned (.first 1 rfl)
  have hnext := Reach.internal _ _ hsecond (.beginNext 0 false 1 2 rfl rfl rfl)
  have hgiven := Reach.internal _ _ hnext
    (.postsNext 0 false 1 2 none rfl (by unfold Signals; decide))
  have hdone := Reach.internal _ _ hgiven (.destroy 0 (.step false 1) rfl)
  have htaken := Reach.internal _ _ hdone (.again 0 rfl)
  exact ⟨_, htaken, rfl, rfl, rfl⟩

theorem workers_serialise_busy : ∃ p : Pool Bool Nat,
    p.threads = [.calling (.step false 2), .calling (.step true 3)] ∧
    history .started false p.log = [1, 2] ∧ Serialised false p ∧ Serialised true p := by
  rcases busy_reach with ⟨p, hreach, hthreads, hstarted, -⟩
  exact ⟨p, hthreads, hstarted, workers_serialise false 2 p hreach,
    workers_serialise true 2 p hreach⟩

end RxCppUniq
