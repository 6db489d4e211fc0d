import Mathlib.Algebra.Group.Nat.Defs
import Mathlib.Logic.Function.Basic

/-!
# Thread Pools and Workers

`ThreadPoolScheduler` and `WorkerImpl`. A pool has a fixed number of threads,
which take jobs from a queue; a thread that finds the queue empty waits on a
condition variable. A worker runs its tasks one after the other by giving the
pool one at a time: the job that runs a task ends with a section that gives
the pool the next.

A section protected by the mutex of the pool is one step. A section of a
worker has the pool's `Schedule` nested in it. It is two steps, the second
being the nested call, and the mutex of the worker is held in between, so
that other workers and other threads of the pool may get ahead there.

Nothing is said about when threads run: each step is a step of one thread or
of a caller outside the pool. `Signal` releases a waiting thread, if there is
one, any of them; a wait may also end without a signal; and a thread that was
released looks at the queue again some time later. The destructor of the pool
is left out, and a worker lives as long as its tasks, as it has to.

## Main definitions

* `Job`: What is in the pool's queue.
* `Worker`: The fields of a worker.
* `Thread`: Where a thread of the pool is.
* `Pool`: The pool with its threads, its workers and its callers.
* `Pool.External`, `Pool.Internal`: The steps by which work comes in, and all
  others.
* `Pool.Reach`: The states that runs reach.

## Theorems

* `Pool.External.length_threads`, `Pool.Internal.length_threads`: The number of
  threads does not change.
-/

namespace RxCppUniq

variable {W T : Type}

/-- What is in the queue of the pool: a task that was scheduled there, or the
    next task of a worker. -/
inductive Job (W T : Type) where
  | direct (task : T)
  | step (worker : W) (task : T)
deriving DecidableEq

/-- The fields of `WorkerImpl`. -/
structure Worker (T : Type) where
  /-- The mutex `busy_` is held across the nested call of the pool. -/
  busy : Bool := false
  running : Bool := false
  steps : List T := []

namespace Worker

/-- `MaybeRunNext`, up to the call of the pool with the task it has taken. -/
def maybeRunNext (w : Worker T) : Worker T × Option T :=
  if w.running then (w, none)
  else
    match w.steps with
    | [] => (w, none)
    | task :: steps => ({ w with running := true, steps := steps, busy := true }, some task)

/-- The section of `Schedule`. -/
def schedule (w : Worker T) (task : T) : Worker T × Option T :=
  { w with steps := w.steps ++ [task] }.maybeRunNext

/-- The section at the end of a worker's job. -/
def complete (w : Worker T) : Worker T × Option T :=
  { w with running := false }.maybeRunNext

/-- The nested call has returned, and the section ends. -/
def release (w : Worker T) : Worker T :=
  { w with busy := false }

end Worker

/-- Where a thread is in `PerThreadActivity` and in the job it runs. -/
inductive Thread (W T : Type) where
  /-- The thread has not got to its first section. -/
  | starting
  /-- In `Wait` on the condition variable. -/
  | waiting
  /-- The wait has ended, the mutex is not yet held again. -/
  | released
  /-- The task of the job is running. -/
  | calling (job : Job W T)
  /-- The task has called `Schedule` of the worker `w`, which is about to give
      the pool `next`. -/
  | posting (job : Job W T) (w : W) (next : T)
  /-- The task has returned. -/
  | returned (job : Job W T)
  /-- The section at the end of the worker's job is about to give the pool
      `next`. -/
  | completing (w : W) (task next : T)
  /-- The job is done, its closure is being destroyed. -/
  | destroying (job : Job W T)
  /-- About to enter the section at the head of the loop. -/
  | ready
deriving DecidableEq

/-- What may happen to a job. -/
inductive Stage where
  | scheduled
  | started
  | returned
  | completed
  | destroyed
deriving DecidableEq, Repr

/-- The pool. Beside its fields these are the workers created from it, the
    callers outside that are half way through `Schedule` of a worker, each
    with the task the worker is about to give the pool, and what has happened
    to the jobs, the latest first. -/
structure Pool (W T : Type) where
  workers : W → Worker T
  todo : List (Job W T)
  threads : List (Thread W T)
  /-- `active_count_`, a `size_t`. -/
  activeCount : Nat
  external : List (W × T)
  log : List (Stage × Job W T)

namespace Pool

/-- The constructor: nothing was scheduled, and no thread has begun. -/
def start (threadCount : Nat) : Pool W T :=
  { workers := fun _ => {}, todo := [], threads := List.replicate threadCount .starting,
    activeCount := threadCount, external := [], log := [] }

/-- The threads that `Signal` may release: one that is waiting, or none when
    nobody is. -/
def Signals (p : Pool W T) : Option Nat → Prop
  | some i => p.threads[i]? = some .waiting
  | none => .waiting ∉ p.threads

/-- `Schedule`: the job is queued, and a thread released. -/
def post (p : Pool W T) (job : Job W T) (who : Option Nat) : Pool W T :=
  { p with
    todo := p.todo ++ [job]
    threads := match who with
      | some i => p.threads.set i .released
      | none => p.threads }

/-- A thread moves on. -/
def setThread (p : Pool W T) (i : Nat) (t : Thread W T) : Pool W T :=
  { p with threads := p.threads.set i t }

def note (p : Pool W T) (stage : Stage) (job : Job W T) : Pool W T :=
  { p with log := (stage, job) :: p.log }

/-- The loop that waits for a job, with the count of active threads as the
    thread has left it. -/
def look (p : Pool W T) (i : Nat) (activeCount : Nat) : Pool W T :=
  match p.todo with
  | [] => { p.setThread i .waiting with activeCount := activeCount }
  | job :: todo =>
      note { p.setThread i (.calling job) with
        todo := todo, activeCount := (activeCount + 1) % 2 ^ 64 } .started job

/-- The section at the head of the loop, which counts the thread as not
    active before it looks. -/
def enter (p : Pool W T) (i : Nat) : Pool W T :=
  p.look i ((p.activeCount + (2 ^ 64 - 1)) % 2 ^ 64)

/-- Who may be released does not depend on a thread that is not waiting. -/
theorem Signals.setThread {p : Pool W T} {who : Option Nat} (h : p.Signals who) (i : Nat)
    (a b : Thread W T) (phase : p.threads[i]? = some a) (ha : a ≠ .waiting) (hb : b ≠ .waiting) :
    (p.setThread i b).Signals who := by
  cases who with
  | none =>
      intro hmem
      rcases List.mem_or_eq_of_mem_set hmem with hmem | heq
      · exact h hmem
      · exact hb heq.symm
  | some j =>
      have hne : i ≠ j := by
        rintro rfl
        exact ha (Option.some.inj (phase.symm.trans h))
      exact (List.getElem?_set_ne hne).trans h

variable [DecidableEq W]

def setWorker (p : Pool W T) (w : W) (worker : Worker T) : Pool W T :=
  { p with workers := Function.update p.workers w worker }

/-- `Schedule` of a worker, up to the nested call. -/
def scheduleOn (p : Pool W T) (w : W) (task : T) : Pool W T :=
  (p.setWorker w ((p.workers w).schedule task).1).note .scheduled (.step w task)

/-- The section at the end of a worker's job, up to the nested call. -/
def completeOn (p : Pool W T) (w : W) (task : T) : Pool W T :=
  (p.setWorker w (p.workers w).complete.1).note .completed (.step w task)

/-- The nested call of the pool, and the end of the worker's section. -/
def postStep (p : Pool W T) (w : W) (next : T) (who : Option Nat) : Pool W T :=
  (p.setWorker w (p.workers w).release).post (.step w next) who

/-- A caller outside the pool schedules a task, on the pool or on a worker. -/
inductive External (p : Pool W T) : Pool W T → Prop where
  | direct (task : T) (who : Option Nat) (signals : p.Signals who) :
      External p ((p.note .scheduled (.direct task)).post (.direct task) who)
  | enqueue (w : W) (task : T) (free : (p.workers w).busy = false)
      (none : ((p.workers w).schedule task).2 = none) : External p (p.scheduleOn w task)
  | begin_ (w : W) (task next : T) (free : (p.workers w).busy = false)
      (some : ((p.workers w).schedule task).2 = some next) :
      External p { p.scheduleOn w task with external := (w, next) :: p.external }

/-- All other steps: those of the threads of the pool, and the second half of
    a call from outside. -/
inductive Internal (p : Pool W T) : Pool W T → Prop where
  | finish (before after : List (W × T)) (w : W) (next : T) (who : Option Nat)
      (call : p.external = before ++ (w, next) :: after) (signals : p.Signals who) :
      Internal p (postStep { p with external := before ++ after } w next who)
  | wake (i : Nat) (phase : p.threads[i]? = some .waiting) : Internal p (p.setThread i .released)
  | first (i : Nat) (phase : p.threads[i]? = some .starting) : Internal p (p.enter i)
  | again (i : Nat) (phase : p.threads[i]? = some .ready) : Internal p (p.enter i)
  | relook (i : Nat) (phase : p.threads[i]? = some .released) :
      Internal p (p.look i p.activeCount)
  | direct (i : Nat) (job : Job W T) (task : T) (who : Option Nat)
      (phase : p.threads[i]? = some (.calling job)) (signals : p.Signals who) :
      Internal p ((p.note .scheduled (.direct task)).post (.direct task) who)
  | enqueue (i : Nat) (job : Job W T) (w : W) (task : T)
      (phase : p.threads[i]? = some (.calling job)) (free : (p.workers w).busy = false)
      (none : ((p.workers w).schedule task).2 = none) : Internal p (p.scheduleOn w task)
  | begin_ (i : Nat) (job : Job W T) (w : W) (task next : T)
      (phase : p.threads[i]? = some (.calling job)) (free : (p.workers w).busy = false)
      (some : ((p.workers w).schedule task).2 = some next) :
      Internal p ((p.scheduleOn w task).setThread i (.posting job w next))
  | posts (i : Nat) (job : Job W T) (w : W) (next : T) (who : Option Nat)
      (phase : p.threads[i]? = some (.posting job w next)) (signals : p.Signals who) :
      Internal p ((p.setThread i (.calling job)).postStep w next who)
  | return_ (i : Nat) (job : Job W T) (phase : p.threads[i]? = some (.calling job)) :
      Internal p ((p.setThread i (.returned job)).note .returned job)
  | completeDirect (i : Nat) (task : T)
      (phase : p.threads[i]? = some (.returned (.direct task))) :
      Internal p ((p.setThread i (.destroying (.direct task))).note .completed (.direct task))
  | complete (i : Nat) (w : W) (task : T)
      (phase : p.threads[i]? = some (.returned (.step w task)))
      (free : (p.workers w).busy = false) (none : (p.workers w).complete.2 = none) :
      Internal p ((p.completeOn w task).setThread i (.destroying (.step w task)))
  | beginNext (i : Nat) (w : W) (task next : T)
      (phase : p.threads[i]? = some (.returned (.step w task)))
      (free : (p.workers w).busy = false) (some : (p.workers w).complete.2 = some next) :
      Internal p ((p.completeOn w task).setThread i (.completing w task next))
  | postsNext (i : Nat) (w : W) (task next : T) (who : Option Nat)
      (phase : p.threads[i]? = some (.completing w task next)) (signals : p.Signals who) :
      Internal p ((p.setThread i (.destroying (.step w task))).postStep w next who)
  | destroy (i : Nat) (job : Job W T) (phase : p.threads[i]? = some (.destroying job)) :
      Internal p ((p.setThread i .ready).note .destroyed job)

/-- The states that runs of a pool with so many threads reach. -/
inductive Reach (threadCount : Nat) : Pool W T → Prop where
  | start : Reach threadCount (start threadCount)
  | external (p next : Pool W T) (reached : Reach threadCount p) (step : External p next) :
      Reach threadCount next
  | internal (p next : Pool W T) (reached : Reach threadCount p) (step : Internal p next) :
      Reach threadCount next

section Threads

variable {p next : Pool W T}

omit [DecidableEq W] in
theorem length_post (job : Job W T) (who : Option Nat) :
    (p.post job who).threads.length = p.threads.length := by
  cases who with
  | none => rfl
  | some i => exact List.length_set

omit [DecidableEq W] in
theorem length_look (i active : Nat) : (p.look i active).threads.length = p.threads.length := by
  unfold look
  cases p.todo with
  | nil => exact List.length_set
  | cons job todo => exact List.length_set

/-- The number of threads does not change. -/
theorem External.length_threads (h : External p next) :
    next.threads.length = p.threads.length := by
  cases h with
  | direct task who signals => exact length_post _ who
  | enqueue v task free none => rfl
  | begin_ v task next free some => rfl

theorem Internal.length_threads (h : Internal p next) :
    next.threads.length = p.threads.length := by
  cases h with
  | finish before after v next who call signals => exact length_post _ who
  | first i phase => exact length_look i _
  | again i phase => exact length_look i _
  | relook i phase => exact length_look i _
  | direct i job task who phase signals => exact length_post _ who
  | enqueue i job v task phase free none => rfl
  | posts i job v next who phase signals => exact (length_post _ who).trans List.length_set
  | postsNext i v task next who phase signals => exact (length_post _ who).trans List.length_set
  | _ => exact List.length_set

end Threads

end Pool

end RxCppUniq
