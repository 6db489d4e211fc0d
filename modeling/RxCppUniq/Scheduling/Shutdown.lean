import RxCppUniq.Scheduling.Idle
import RxCppUniq.Theory.Countdown

/-!
# Shutting Down a Pool

The whole life of a `ThreadPoolScheduler` and of the workers created from it:
the constructor, the runs of the pool, `WaitUntilIdle`, the destructor with
the loop that joins the threads, and the checks by which the program aborts.

The destructor runs when nobody else calls the pool from outside, as for any
object. Nothing of the kind is said about the tasks of the pool: they may
still run then, and one of them may be what destroys the pool. What the code
has against that is the check that the pool is idle.

A worker may be destroyed at any time when nobody is in its `Schedule`. A job
of it that comes to its end then finds the marker cleared; or it has found it
set before, and uses a worker that is gone. Both need a worker that was left
running.

Past the check of the destructor all is decided. An idle pool has all threads waiting or about
to look, and `SignalAll` releases those that wait. Each thread looks once,
finds the queue empty and returns, and the loop of the destructor joins one
after the other.

## Main definitions

* `OwnedPool`: The pool with what its owner does.
* `OwnedPool.destroy`, `OwnedPool.look`, `OwnedPool.join`: The sections that
  the destructor is about.
* `OwnedPool.Step`, `OwnedPool.Reach`: The life of the pool.
* `OwnedPool.left`: How many steps the destructor still takes.
* `OwnedPool.Open`, `OwnedPool.Closing`: What holds before and after the check.
* `ShutsDown`: What follows for a state.

## Theorems

* `OwnedPool.Open.step`, `OwnedPool.Closing.step`: The steps of the two halves.
* `OwnedPool.countdown`: The destructor comes to its end.
* `shuts_down`: The life of a pool.
-/

namespace RxCppUniq

open Theory

variable {W T : Type}

/-- The thread is about to look for a job. -/
def Thread.looks : Thread W T → Bool
  | .starting => true
  | .waiting => false
  | .released => true
  | .calling _ => false
  | .posting _ _ _ => false
  | .returned _ => false
  | .completing _ _ _ => false
  | .destroying _ => false
  | .ready => true

/-- The thread is at the end of a worker's job, past its task. -/
def Thread.ends : Thread W T → Bool
  | .starting => false
  | .waiting => false
  | .released => false
  | .calling _ => false
  | .posting _ _ _ => false
  | .returned (.direct _) => false
  | .returned (.step _ _) => true
  | .completing _ _ _ => true
  | .destroying _ => false
  | .ready => false

/-- A thread after `SignalAll`. -/
def Thread.signalled : Thread W T → Thread W T
  | .waiting => .released
  | t => t

namespace Pool

/-- `SignalAll`. -/
def signalAll (p : Pool W T) : Pool W T :=
  { p with threads := p.threads.map Thread.signalled }

/-- `IdleCondition`. -/
def idleCondition (p : Pool W T) : Bool :=
  p.todo.isEmpty && decide (p.activeCount = 0)

theorem idleCondition_iff (p : Pool W T) : p.idleCondition = true ↔ Idle p := by
  unfold idleCondition
  rw [Bool.and_eq_true, List.isEmpty_iff, decide_eq_true_eq]
  exact ⟨fun h => ⟨h.1, h.2⟩, fun h => ⟨h.todo, h.activeCount⟩⟩

/-- The step is none of a thread that is about to look, or at the end of a
    worker's job. -/
def Elsewhere (p next : Pool W T) : Prop :=
  ∀ (i : Nat) (t : Thread W T), p.threads[i]? = some t → t.looks = true ∨ t.ends = true →
    next.threads[i]? = some t

theorem Elsewhere.not_set {p next : Pool W T} (h : p.Elsewhere next) (i : Nat) (a b : Thread W T)
    (phase : p.threads[i]? = some a) (ha : a.looks = true ∨ a.ends = true) (hab : a ≠ b) :
    next.threads ≠ p.threads.set i b := by
  intro hnext
  have hkept := h i a phase ha
  rw [hnext, List.getElem?_set_self (List.getElem?_eq_some_iff.mp phase).1] at hkept
  exact hab (Option.some.inj hkept).symm

/-- The step is a call of `Schedule` of the worker `w`. -/
def Calls (p next : Pool W T) (w : W) : Prop :=
  ∃ task, next.log = (.scheduled, .step w task) :: p.log

/-- No call of `Schedule` of the worker `w` is under way. -/
def Uncalled (p : Pool W T) (w : W) : Prop :=
  (∀ next, (w, next) ∉ p.external) ∧ ∀ job next, .posting job w next ∉ p.threads

end Pool

/-- What the owner of the pool does. -/
inductive Owner where
  /-- The pool is in use. -/
  | working
  /-- `WaitUntilIdle` has returned, and nobody has called the pool since. -/
  | waited
  /-- In the loop of the destructor, called from outside or in a task of that
      thread. -/
  | joining (caller : Option Nat) (next : Nat)
  /-- The destructor has returned. -/
  | destroyed
deriving DecidableEq, Repr

/-- The pool, and what its owner does with it and with the workers. -/
structure OwnedPool (W T : Type) where
  pool : Pool W T
  owner : Owner
  /-- `threads_should_join_`. -/
  shouldJoin : Bool
  /-- The threads that have returned from `PerThreadActivity`. -/
  exited : List Nat
  /-- The threads that were joined, and are not `joinable` any more. -/
  joined : List Nat
  /-- The workers that were destroyed, which have cleared their `marker_`. -/
  gone : List W
  /-- The threads that have found the marker still set, at the end of a worker's
      job, and have not entered the section. -/
  checked : List Nat
  /-- The check that has failed, or the use of freed memory, which ends the
      program. -/
  failed : Option String

namespace OwnedPool

open Pool (Idle idleCondition_iff share_split counted_reach)

def threadCountCheck : String := "Check failed: thread_count > 0. invalid thread_count"

def idleCheck : String :=
  "Check failed: IdleCondition(this). Thread pool must be idle at destruction time"

def joinableCheck : String :=
  "Check failed: thread.joinable(). " ++
    "Attempted to destroy a threadpool from one of its running threads"

def shouldJoinCheck : String := "Check failed: !threads_should_join_. "

def markerCheck : String := "Check failed: *marker. Worker destroyed before all tasks finished"

/-- A job that was past the check of the marker when its worker was destroyed. -/
def destroyedWorker : String := "Use of a worker that was destroyed"

/-- A thread that joins itself, of which the check says nothing. -/
def deadlock : String := "Resource deadlock avoided"

/-- The constructor. -/
def create (threadCount : Nat) : OwnedPool W T :=
  { pool := .start threadCount, owner := .working, shouldJoin := false, exited := [],
    joined := [], gone := [], checked := [],
    failed := if 0 < threadCount then none else some threadCountCheck }

/-- The first section of the destructor. -/
def destroy (s : OwnedPool W T) (caller : Option Nat) : OwnedPool W T :=
  if s.pool.idleCondition then
    { s with pool := s.pool.signalAll, shouldJoin := true, owner := .joining caller 0 }
  else { s with failed := some idleCheck }

/-- The loop in which a thread waits for a job, with the count of active
    threads as it has left it. -/
def look (s : OwnedPool W T) (i activeCount : Nat) : OwnedPool W T :=
  match s.pool.todo with
  | [] =>
      if s.shouldJoin then
        { s with pool := { s.pool with activeCount := activeCount }, exited := i :: s.exited }
      else { s with pool := s.pool.look i activeCount }
  | _ :: _ =>
      if s.shouldJoin then { s with failed := some shouldJoinCheck }
      else { s with pool := s.pool.look i activeCount }

/-- The section at the head of the loop of a thread. -/
def enter (s : OwnedPool W T) (i : Nat) : OwnedPool W T :=
  s.look i ((s.pool.activeCount + (2 ^ 64 - 1)) % 2 ^ 64)

/-- One round of the loop of the destructor, when the thread has returned. -/
def join (s : OwnedPool W T) (caller : Option Nat) (i : Nat) : OwnedPool W T :=
  if i ∈ s.joined then { s with failed := some joinableCheck }
  else if caller = some i then { s with failed := some deadlock }
  else { s with joined := i :: s.joined, owner := .joining caller (i + 1) }

variable [DecidableEq W]

/-- The section at the end of a worker's job, and the end of that section. -/
def leave (s : OwnedPool W T) (i : Nat) (p : Pool W T) : OwnedPool W T :=
  { s with pool := p, checked := s.checked.filter fun j => decide (j ≠ i) }

/-- The thread is past the check of the marker, and will use the worker. -/
def Past (s : OwnedPool W T) (i : Nat) (w : W) : Prop :=
  (∃ task, s.pool.threads[i]? = some (.returned (.step w task)) ∧ i ∈ s.checked) ∨
    ∃ task next, s.pool.threads[i]? = some (.completing w task next)

/-- One step of somebody. Those who call `Schedule` of a worker see to it that
    the worker is not destroyed. Its jobs read the marker, once, before they
    take the mutex of the worker. -/
inductive Step (s : OwnedPool W T) : OwnedPool W T → Prop where
  | external (p : Pool W T) (owner : s.owner = .working ∨ s.owner = .waited)
      (step : Pool.External s.pool p) (lives : ∀ w ∈ s.gone, ¬ s.pool.Calls p w) :
      Step s { s with pool := p, owner := .working }
  | internal (p : Pool W T) (step : Pool.Internal s.pool p) (elsewhere : s.pool.Elsewhere p)
      (lives : ∀ w ∈ s.gone, ¬ s.pool.Calls p w) : Step s { s with pool := p }
  | check (i : Nat) (w : W) (task : T)
      (phase : s.pool.threads[i]? = some (.returned (.step w task))) (unchecked : i ∉ s.checked)
      (lives : w ∉ s.gone) : Step s { s with checked := i :: s.checked }
  | marker (i : Nat) (w : W) (task : T)
      (phase : s.pool.threads[i]? = some (.returned (.step w task))) (unchecked : i ∉ s.checked)
      (gone : w ∈ s.gone) : Step s { s with failed := some markerCheck }
  | complete (i : Nat) (w : W) (task : T)
      (phase : s.pool.threads[i]? = some (.returned (.step w task))) (checked : i ∈ s.checked)
      (lives : w ∉ s.gone) (free : (s.pool.workers w).busy = false)
      (none : (s.pool.workers w).complete.2 = none) :
      Step s (s.leave i ((s.pool.completeOn w task).setThread i (.destroying (.step w task))))
  | beginNext (i : Nat) (w : W) (task next : T)
      (phase : s.pool.threads[i]? = some (.returned (.step w task))) (checked : i ∈ s.checked)
      (lives : w ∉ s.gone) (free : (s.pool.workers w).busy = false)
      (some : (s.pool.workers w).complete.2 = some next) :
      Step s (s.leave i ((s.pool.completeOn w task).setThread i (.completing w task next)))
  | postsNext (i : Nat) (w : W) (task next : T) (who : Option Nat)
      (phase : s.pool.threads[i]? = some (.completing w task next)) (lives : w ∉ s.gone)
      (signals : s.pool.Signals who) :
      Step s (s.leave i
        ((s.pool.setThread i (.destroying (.step w task))).postStep w next who))
  -- The destructor of the worker takes no mutex: it may come after the check,
  -- and also while the section holds the mutex.
  | useAfterFree (i : Nat) (w : W) (past : s.Past i w) (gone : w ∈ s.gone) :
      Step s { s with failed := some destroyedWorker }
  | first (i : Nat) (phase : s.pool.threads[i]? = some .starting) (runs : i ∉ s.exited) :
      Step s (s.enter i)
  | again (i : Nat) (phase : s.pool.threads[i]? = some .ready) (runs : i ∉ s.exited) :
      Step s (s.enter i)
  | relook (i : Nat) (phase : s.pool.threads[i]? = some .released) (runs : i ∉ s.exited) :
      Step s (s.look i s.pool.activeCount)
  | drop (w : W) (owner : s.owner = .working ∨ s.owner = .waited) (lives : w ∉ s.gone)
      (uncalled : s.pool.Uncalled w) : Step s { s with gone := w :: s.gone }
  | wait (owner : s.owner = .working ∨ s.owner = .waited) (alone : s.pool.external = [])
      (idle : s.pool.idleCondition = true) : Step s { s with owner := .waited }
  | destroy (owner : s.owner = .working ∨ s.owner = .waited) (alone : s.pool.external = []) :
      Step s (s.destroy none)
  | destroyInTask (i : Nat) (job : Job W T) (owner : s.owner = .working ∨ s.owner = .waited)
      (alone : s.pool.external = []) (phase : s.pool.threads[i]? = some (.calling job)) :
      Step s (s.destroy (some i))
  | join (caller : Option Nat) (i : Nat) (owner : s.owner = .joining caller i)
      (thread : i < s.pool.threads.length)
      (returned : i ∉ s.joined → caller ≠ some i → i ∈ s.exited) : Step s (s.join caller i)
  | done (caller : Option Nat) (i : Nat) (owner : s.owner = .joining caller i)
      (last : s.pool.threads.length ≤ i) : Step s { s with owner := .destroyed }

/-- The states in the life of a pool with so many threads. -/
inductive Reach (threadCount : Nat) : OwnedPool W T → Prop where
  | create : Reach threadCount (create threadCount)
  | step (s next : OwnedPool W T) (reached : Reach threadCount s) (runs : s.failed = none)
      (step : Step s next) : Reach threadCount next

/-- How many steps the destructor still takes, with those of the threads. -/
def left (s : OwnedPool W T) : Nat :=
  match s.owner with
  | .joining _ i =>
      (s.pool.threads.length - s.exited.length) + (s.pool.threads.length - i) + 1
  | _ => s.pool.threads.length - s.exited.length

section Look

omit [DecidableEq W]

/-- Before the destructor a thread looks as in a pool that nobody destroys. -/
theorem look_open (s : OwnedPool W T) (i active : Nat) (h : s.shouldJoin = false) :
    s.look i active = { s with pool := s.pool.look i active } := by
  unfold look
  rw [h]
  cases s.pool.todo with
  | nil => exact if_neg Bool.false_ne_true
  | cons job todo => exact if_neg Bool.false_ne_true

/-- After it a thread that finds the queue empty returns. -/
theorem look_closing (s : OwnedPool W T) (i : Nat) (h : s.shouldJoin = true)
    (htodo : s.pool.todo = []) :
    s.look i s.pool.activeCount = { s with exited := i :: s.exited } := by
  unfold look
  rw [htodo, h, if_pos rfl]

end Look

/-- Before the check of the destructor. -/
structure Open (n : Nat) (s : OwnedPool W T) : Prop where
  reach : Pool.Reach n s.pool
  shouldJoin : s.shouldJoin = false
  exited : s.exited = []
  joined : s.joined = []
  owner : s.owner = .working ∨ s.owner = .waited ∧ Idle s.pool ∧ s.pool.external = []
  failed : s.failed = none

/-- After it, when the pool was `q` at the check. -/
structure Closing (n : Nat) (q : Pool W T) (s : OwnedPool W T) : Prop where
  reach : Pool.Reach n q
  idle : Idle q
  alone : q.external = []
  pool : s.pool = q.signalAll
  shouldJoin : s.shouldJoin = true
  failed : s.failed = none
  nodup : s.exited.Nodup
  threads : ∀ i ∈ s.exited, i < n
  returned : ∀ i ∈ s.joined, i ∈ s.exited
  owner : (∃ i, s.owner = .joining none i ∧ i ≤ n ∧ ∀ j, j ∈ s.joined ↔ j < i) ∨
    s.owner = .destroyed ∧ ∀ j < n, j ∈ s.joined

/-- A check has failed, or a worker was used that had been destroyed. -/
inductive Aborted (n : Nat) (s : OwnedPool W T) : String → Prop where
  | threadCount (none : n = 0) : Aborted n s threadCountCheck
  | idle (busy : s.pool.idleCondition = false) : Aborted n s idleCheck
  | marker (w : W) (gone : w ∈ s.gone) (running : (s.pool.workers w).running = true) :
      Aborted n s markerCheck
  | useAfterFree (i : Nat) (w : W) (past : s.Past i w) (gone : w ∈ s.gone)
      (running : (s.pool.workers w).running = true) : Aborted n s destroyedWorker

/-- Where the life of a pool may be. -/
inductive Life (n : Nat) (s : OwnedPool W T) : Prop where
  | opened (h : Open n s)
  | closing (q : Pool W T) (h : Closing n q s)
  | aborted (m : String) (failed : s.failed = some m) (h : Aborted n s m)

namespace Open

variable {n : Nat} {s next : OwnedPool W T}

/-- A worker has more to do when a job of it is with a thread that has not
    released it. -/
theorem running (h : Open n s) (i : Nat) (w : W) (task : T)
    (phase : s.pool.threads[i]? = some (.returned (.step w task))) :
    (s.pool.workers w).running = true := by
  rcases serialises_reach w n s.pool h.reach with ⟨turn, finished, hserial⟩
  rcases share_split w s.pool i _ phase with ⟨rest, hshare, _⟩
  have hturn : turn.share = rest + (0, 0, {task}) := by
    rw [← hserial.share, hshare, Thread.share, Job.held, only_self]
  rw [hserial.running, (Turn.eq_returned turn hturn).1]
  rfl

/-- Also when the job is past the check of the marker. -/
theorem running_past (h : Open n s) (i : Nat) (w : W) (past : s.Past i w) :
    (s.pool.workers w).running = true := by
  rcases past with ⟨task, phase, _⟩ | ⟨task, next, phase⟩
  · exact h.running i w task phase
  · rcases serialises_reach w n s.pool h.reach with ⟨turn, finished, hserial⟩
    rcases share_split w s.pool i _ phase with ⟨rest, hshare, _⟩
    have hturn : turn.share = rest + ({next}, 0, 0) := by
      rw [← hserial.share, hshare, Thread.share, only_self]
    rw [hserial.running, (Turn.eq_posted turn hturn).1]
    rfl

/-- A pool in which a task runs is not idle. -/
theorem busy (hn : n < 2 ^ 64) (h : Open n s) (i : Nat) (job : Job W T)
    (phase : s.pool.threads[i]? = some (.calling job)) : s.pool.idleCondition = false := by
  rw [← Bool.not_eq_true, idleCondition_iff]
  intro hidle
  exact absurd (hidle.inactive (counted_reach n hn s.pool h.reach) i _ phase) Nat.one_ne_zero

/-- A step of the pool itself. -/
theorem internal (hn : n < 2 ^ 64) (h : Open n s) (p : Pool W T)
    (hstep : Pool.Internal s.pool p) : Open n { s with pool := p } := by
  refine { h with reach := .internal _ _ h.reach hstep, owner := ?_ }
  rcases h.owner with howner | ⟨howner, hidle, halone⟩
  · exact Or.inl howner
  · exact Or.inr ⟨howner, hidle.internal (counted_reach n hn s.pool h.reach) halone hstep⟩

theorem leave (hn : n < 2 ^ 64) (h : Open n s) (i : Nat) (p : Pool W T)
    (hstep : Pool.Internal s.pool p) : Open n (s.leave i p) :=
  { h.internal hn p hstep with }

theorem look (hn : n < 2 ^ 64) (h : Open n s) (i active : Nat)
    (hstep : Pool.Internal s.pool (s.pool.look i active)) : Open n (s.look i active) := by
  rw [look_open s i active h.shouldJoin]
  exact h.internal hn _ hstep

end Open

/-- The threads of an idle pool after `SignalAll`: all are about to look. -/
theorem signalAll_threads {n : Nat} {q : Pool W T} (hn : n < 2 ^ 64) (hreach : Pool.Reach n q)
    (hidle : Idle q) (i : Nat) (hi : i < n) : q.signalAll.threads[i]? = some .released := by
  have hcount := counted_reach n hn q hreach
  have hlen : i < q.threads.length := hcount.threads.symm ▸ hi
  have hthread : q.threads[i]? = some q.threads[i] := List.getElem?_eq_getElem hlen
  have hmap : q.signalAll.threads[i]? = some q.threads[i].signalled := by
    rw [Pool.signalAll, List.getElem?_map, hthread, Option.map_some]
  rw [hmap]
  rcases hidle.threads hcount _ (List.getElem_mem hlen) with hwait | hreleased
  · rw [hwait, Thread.signalled]
  · rw [hreleased]
    rfl

namespace Open

variable {n : Nat} {s next : OwnedPool W T}

/-- The destructor, called from outside. -/
theorem destroy (h : Open n s) (halone : s.pool.external = []) : Life n (s.destroy none) := by
  unfold OwnedPool.destroy
  by_cases hidle : s.pool.idleCondition = true
  · rw [if_pos hidle]
    refine .closing s.pool ⟨h.reach, (idleCondition_iff _).mp hidle, halone, rfl, rfl, h.failed,
      ?_, ?_, ?_, Or.inl ⟨0, rfl, Nat.zero_le n, fun j => ?_⟩⟩
    · rw [h.exited]
      exact List.nodup_nil
    · rw [h.exited]
      exact fun i hi => absurd hi List.not_mem_nil
    · rw [h.joined]
      exact fun i hi => absurd hi List.not_mem_nil
    · rw [h.joined]
      exact iff_of_false List.not_mem_nil (Nat.not_lt_zero j)
  · rw [if_neg hidle]
    exact .aborted idleCheck rfl (.idle (Bool.not_eq_true _ ▸ hidle))

/-- A task that destroys its pool fails the check. -/
theorem destroyInTask (hn : n < 2 ^ 64) (h : Open n s) (i : Nat) (job : Job W T)
    (phase : s.pool.threads[i]? = some (.calling job)) :
    s.destroy (some i) = { s with failed := some idleCheck } := by
  unfold OwnedPool.destroy
  rw [h.busy hn i job phase, if_neg Bool.false_ne_true]

/-- Up to the check of the destructor. -/
theorem step (hn : n < 2 ^ 64) (h : Open n s) (hstep : Step s next) : Life n next := by
  have hopen : ∀ caller i, s.owner ≠ .joining caller i := by
    intro caller i howner
    rcases h.owner with hwork | ⟨hwait, _, _⟩
    · exact absurd (hwork.symm.trans howner)
        (by simp only [reduceCtorEq, not_false_eq_true])
    · exact absurd (hwait.symm.trans howner)
        (by simp only [reduceCtorEq, not_false_eq_true])
  cases hstep with
  | external p owner step lives =>
      exact .opened { h with reach := .external _ _ h.reach step, owner := Or.inl rfl }
  | internal p step elsewhere lives => exact .opened (h.internal hn p step)
  | check i w task phase unchecked lives => exact .opened { h with }
  | marker i w task phase unchecked gone =>
      exact .aborted markerCheck rfl (.marker w gone (h.running i w task phase))
  | complete i w task phase checked lives free none =>
      exact .opened (h.leave hn i _ (.complete i w task phase free none))
  | beginNext i w task next phase checked lives free some =>
      exact .opened (h.leave hn i _ (.beginNext i w task next phase free some))
  | postsNext i w task next who phase lives signals =>
      exact .opened (h.leave hn i _ (.postsNext i w task next who phase signals))
  | useAfterFree i w past gone =>
      exact .aborted destroyedWorker rfl (.useAfterFree i w past gone (h.running_past i w past))
  | first i phase runs => exact .opened (h.look hn i _ (.first i phase))
  | again i phase runs => exact .opened (h.look hn i _ (.again i phase))
  | relook i phase runs => exact .opened (h.look hn i _ (.relook i phase))
  | drop w owner lives uncalled => exact .opened { h with }
  | wait owner alone idle =>
      exact .opened { h with owner := Or.inr ⟨rfl, (idleCondition_iff _).mp idle, alone⟩ }
  | destroy owner alone => exact h.destroy alone
  | destroyInTask i job owner alone phase =>
      have hbusy := h.busy hn i job phase
      rw [h.destroyInTask hn i job phase]
      exact .aborted idleCheck rfl (.idle hbusy)
  | join caller i owner thread returned => exact absurd owner (hopen caller i)
  | done caller i owner last => exact absurd owner (hopen caller i)

end Open

namespace Closing

variable {n : Nat} {q : Pool W T} {s next : OwnedPool W T}

theorem length (hn : n < 2 ^ 64) (h : Closing n q s) : s.pool.threads.length = n := by
  rw [h.pool, Pool.signalAll, List.length_map]
  exact (counted_reach n hn q h.reach).threads

/-- All threads are about to look. -/
theorem released (hn : n < 2 ^ 64) (h : Closing n q s) (i : Nat) (t : Thread W T)
    (phase : s.pool.threads[i]? = some t) : t = .released := by
  have hi : i < n := by
    rw [← h.length hn]
    exact (List.getElem?_eq_some_iff.mp phase).1
  rw [h.pool, signalAll_threads hn h.reach h.idle i hi] at phase
  exact (Option.some.inj phase).symm

theorem not_phase (hn : n < 2 ^ 64) (h : Closing n q s) (i : Nat) (t : Thread W T)
    (ht : t ≠ .released) : s.pool.threads[i]? ≠ some t :=
  fun phase => ht (h.released hn i t phase)

theorem not_past (hn : n < 2 ^ 64) (h : Closing n q s) (i : Nat) (w : W) : ¬ s.Past i w := by
  rintro (⟨task, phase, _⟩ | ⟨task, next, phase⟩)
  · exact h.not_phase hn i _ (by simp only [ne_eq, reduceCtorEq, not_false_eq_true]) phase
  · exact h.not_phase hn i _ (by simp only [ne_eq, reduceCtorEq, not_false_eq_true]) phase

theorem todo (h : Closing n q s) : s.pool.todo = [] := by
  rw [h.pool]
  exact h.idle.todo

/-- The pool itself has nothing left to do but to let its threads look. -/
theorem no_internal (hn : n < 2 ^ 64) (h : Closing n q s) (p : Pool W T)
    (hstep : Pool.Internal s.pool p) (helsewhere : s.pool.Elsewhere p) : False := by
  cases hstep with
  | finish before after v next who call signals =>
      rw [h.pool] at call
      exact absurd (h.alone.symm.trans call) (by simp only [List.nil_eq, List.append_eq_nil_iff,
        reduceCtorEq, and_false, not_false_eq_true])
  | relook i phase =>
      -- It would begin to wait.
      refine helsewhere.not_set i .released .waiting phase (Or.inl rfl)
        (by simp only [ne_eq, reduceCtorEq, not_false_eq_true]) ?_
      rw [Pool.look, h.todo]
      rfl
  | _ =>
      refine absurd ‹s.pool.threads[_]? = some _› (h.not_phase hn _ _ ?_)
      simp only [ne_eq, reduceCtorEq, not_false_eq_true]

theorem not_open (h : Closing n q s) : ¬ (s.owner = .working ∨ s.owner = .waited) := by
  intro howner
  rcases h.owner with ⟨i, hjoin, _, _⟩ | ⟨hdone, _⟩
  · rw [hjoin] at howner
    exact absurd howner (by simp only [reduceCtorEq, or_self, not_false_eq_true])
  · rw [hdone] at howner
    exact absurd howner (by simp only [reduceCtorEq, or_self, not_false_eq_true])

/-- Past the check there are three kinds of steps: a thread returns, a thread
    that has returned is joined, and the loop is done. -/
theorem cases_step (hn : n < 2 ^ 64) (h : Closing n q s) (hstep : Step s next) :
    (∃ i < n, i ∉ s.exited ∧ next = { s with exited := i :: s.exited }) ∨
    (∃ i < n, s.owner = .joining none i ∧ (∀ j, j ∈ s.joined ↔ j < i) ∧ i ∈ s.exited ∧
      next = { s with joined := i :: s.joined, owner := .joining none (i + 1) }) ∨
    (s.owner = .joining none n ∧ (∀ j, j ∈ s.joined ↔ j < n) ∧
      next = { s with owner := .destroyed }) := by
  -- Where the loop is, for the two kinds that the destructor takes.
  have hloop : ∀ caller i, s.owner = .joining caller i →
      caller = none ∧ i ≤ n ∧ ∀ j, j ∈ s.joined ↔ j < i := by
    intro caller i howner
    rcases h.owner with ⟨k, hjoin, hk, hjoined⟩ | ⟨hdone, _⟩
    · rw [howner, Owner.joining.injEq] at hjoin
      rcases hjoin with ⟨rfl, rfl⟩
      exact ⟨rfl, hk, hjoined⟩
    · rw [howner] at hdone
      exact absurd hdone (by simp only [reduceCtorEq, not_false_eq_true])
  cases hstep with
  | external p owner step lives => exact absurd owner h.not_open
  | internal p step elsewhere lives => exact (h.no_internal hn p step elsewhere).elim
  | check i w task phase unchecked lives =>
      exact absurd phase (h.not_phase hn i _
        (by simp only [ne_eq, reduceCtorEq, not_false_eq_true]))
  | marker i w task phase unchecked gone =>
      exact absurd phase (h.not_phase hn i _
        (by simp only [ne_eq, reduceCtorEq, not_false_eq_true]))
  | complete i w task phase checked lives free none =>
      exact absurd phase (h.not_phase hn i _
        (by simp only [ne_eq, reduceCtorEq, not_false_eq_true]))
  | beginNext i w task next phase checked lives free some =>
      exact absurd phase (h.not_phase hn i _
        (by simp only [ne_eq, reduceCtorEq, not_false_eq_true]))
  | postsNext i w task next who phase lives signals =>
      exact absurd phase (h.not_phase hn i _
        (by simp only [ne_eq, reduceCtorEq, not_false_eq_true]))
  | useAfterFree i w past gone => exact (h.not_past hn i w past).elim
  | first i phase runs =>
      exact absurd phase (h.not_phase hn i _
        (by simp only [ne_eq, reduceCtorEq, not_false_eq_true]))
  | again i phase runs =>
      exact absurd phase (h.not_phase hn i _
        (by simp only [ne_eq, reduceCtorEq, not_false_eq_true]))
  | relook i phase runs =>
      refine Or.inl ⟨i, ?_, runs, look_closing s i h.shouldJoin h.todo⟩
      rw [← h.length hn]
      exact (List.getElem?_eq_some_iff.mp phase).1
  | drop w owner lives uncalled => exact absurd owner h.not_open
  | wait owner alone idle => exact absurd owner h.not_open
  | destroy owner alone => exact absurd owner h.not_open
  | destroyInTask i job owner alone phase => exact absurd owner h.not_open
  | join caller i owner thread returned =>
      rcases hloop caller i owner with ⟨rfl, _, hjoined⟩
      have hnew : i ∉ s.joined := fun hi => absurd ((hjoined i).mp hi) (Nat.lt_irrefl i)
      have hself : (none : Option Nat) ≠ some i := by
        simp only [ne_eq, reduceCtorEq, not_false_eq_true]
      refine Or.inr (Or.inl ⟨i, h.length hn ▸ thread, owner, hjoined, returned hnew hself, ?_⟩)
      unfold OwnedPool.join
      rw [if_neg hnew, if_neg hself]
  | done caller i owner last =>
      rcases hloop caller i owner with ⟨rfl, hi, hjoined⟩
      rw [h.length hn] at last
      have hin : i = n := Nat.le_antisymm hi last
      subst hin
      exact Or.inr (Or.inr ⟨owner, hjoined, rfl⟩)

/-- Past the check of the destructor. -/
theorem step (hn : n < 2 ^ 64) (h : Closing n q s) (hstep : Step s next) :
    Closing n q next := by
  rcases h.cases_step hn hstep with ⟨i, hi, hruns, rfl⟩ | ⟨i, hi, howner, hjoined, hexited, rfl⟩ |
    ⟨howner, hjoined, rfl⟩
  · have hnodup : (i :: s.exited).Nodup := List.nodup_cons.mpr ⟨hruns, h.nodup⟩
    refine { h with nodup := hnodup, threads := ?_, returned := ?_, owner := ?_ }
    · exact List.forall_mem_cons.mpr ⟨hi, h.threads⟩
    · exact fun j hj => List.mem_cons_of_mem i (h.returned j hj)
    · rcases h.owner with hloop | ⟨hdone, hall⟩
      · exact Or.inl hloop
      · exact Or.inr ⟨hdone, hall⟩
  · refine { h with returned := ?_, owner := Or.inl ⟨i + 1, rfl, hi, fun j => ?_⟩ }
    · exact List.forall_mem_cons.mpr ⟨hexited, h.returned⟩
    · rw [List.mem_cons, hjoined j]
      omega
  · exact { h with owner := Or.inr ⟨rfl, fun j hj => (hjoined j).mpr hj⟩ }

theorem length_exited (h : Closing n q s) : s.exited.length ≤ n := by
  have hsub : s.exited ⊆ List.range n := fun i hi => List.mem_range.mpr (h.threads i hi)
  have hle := (List.subperm_of_subset h.nodup hsub).length_le
  rwa [List.length_range] at hle

/-- All have returned when there are so many. -/
theorem all_exited (h : Closing n q s) (hall : ∀ i < n, i ∈ s.exited) : s.exited.length = n := by
  have hsub : List.range n ⊆ s.exited := fun i hi => hall i (List.mem_range.mp hi)
  have hle := (List.subperm_of_subset List.nodup_range hsub).length_le
  rw [List.length_range] at hle
  exact Nat.le_antisymm h.length_exited hle

/-- What is left, in the loop and after it. -/
theorem left_joining (hn : n < 2 ^ 64) (h : Closing n q s) (i : Nat)
    (howner : s.owner = .joining none i) : s.left = (n - s.exited.length) + (n - i) + 1 := by
  rw [left, howner, h.length hn]

theorem left_destroyed (hn : n < 2 ^ 64) (h : Closing n q s) (howner : s.owner = .destroyed) :
    s.left = 0 := by
  rcases h.owner with ⟨i, hjoin, _, _⟩ | ⟨_, hall⟩
  · exact absurd (hjoin.symm.trans howner) (by simp only [reduceCtorEq, not_false_eq_true])
  · rw [left, howner]
    change s.pool.threads.length - s.exited.length = 0
    rw [h.length hn, h.all_exited fun i hi => h.returned i (hall i hi), Nat.sub_self]

theorem left_eq_zero_iff (hn : n < 2 ^ 64) (h : Closing n q s) :
    s.left = 0 ↔ s.owner = .destroyed := by
  refine ⟨fun hzero => ?_, h.left_destroyed hn⟩
  rcases h.owner with ⟨i, hjoin, _, _⟩ | ⟨hdone, _⟩
  · rw [h.left_joining hn i hjoin] at hzero
    exact absurd hzero (Nat.succ_ne_zero _)
  · exact hdone

theorem left_le (hn : n < 2 ^ 64) (h : Closing n q s) : s.left ≤ 2 * n + 1 := by
  rcases h.owner with ⟨i, hjoin, _, _⟩ | ⟨hdone, _⟩
  · rw [h.left_joining hn i hjoin]
    omega
  · rw [h.left_destroyed hn hdone]
    exact Nat.zero_le _

theorem lowers (hn : n < 2 ^ 64) (h : Closing n q s) (hstep : Step s next) :
    next.left + 1 = s.left := by
  have hnext := h.step hn hstep
  have hlength := hnext.length_exited
  rcases h.cases_step hn hstep with ⟨i, hi, hruns, rfl⟩ | ⟨i, hi, howner, _, _, rfl⟩ |
    ⟨howner, hjoined, rfl⟩
  · rw [List.length_cons] at hlength
    rcases h.owner with ⟨k, hjoin, _, _⟩ | ⟨_, hall⟩
    · rw [h.left_joining hn k hjoin, hnext.left_joining hn k hjoin, List.length_cons]
      omega
    · exact absurd (h.returned i (hall i hi)) hruns
  · rw [h.left_joining hn i howner, hnext.left_joining hn (i + 1) rfl]
    change n - s.exited.length + (n - (i + 1)) + 1 + 1 = _
    omega
  · -- Who was joined has returned.
    have hall : ∀ j < n, j ∈ s.exited := fun j hj => h.returned j ((hjoined j).mpr hj)
    rw [h.left_joining hn n howner, hnext.left_destroyed hn rfl, h.all_exited hall, Nat.sub_self]

/-- The loop waits for a thread that has not returned, which is about to
    look. -/
theorem moves (hn : n < 2 ^ 64) (h : Closing n q s) (hleft : s.left ≠ 0) :
    ∃ next, Step s next := by
  rcases h.owner with ⟨i, hjoin, hi, hjoined⟩ | ⟨hdone, _⟩
  · by_cases hlast : i = n
    · exact ⟨_, .done none i hjoin (by rw [h.length hn, hlast])⟩
    · have hthread : i < n := Nat.lt_of_le_of_ne hi hlast
      by_cases hexited : i ∈ s.exited
      · exact ⟨_, .join none i hjoin (by rwa [h.length hn]) (fun _ _ => hexited)⟩
      · have hphase : s.pool.threads[i]? = some .released := by
          rw [h.pool]
          exact signalAll_threads hn h.reach h.idle i hthread
        exact ⟨_, .relook i hphase hexited⟩
  · exact absurd (h.left_destroyed hn hdone) hleft

end Closing

/-- The destructor comes to its end. -/
theorem countdown (n : Nat) (hn : n < 2 ^ 64) (q : Pool W T) :
    Countdown Step (Closing n q) left where
  keeps _ _ h hstep := h.step hn hstep
  lowers _ _ h hstep := h.lowers hn hstep
  moves _ h hleft := h.moves hn hleft

theorem life_reach (n : Nat) (hn : n < 2 ^ 64) (s : OwnedPool W T) (h : Reach n s) :
    Life n s := by
  induction h with
  | create =>
      by_cases hpos : 0 < n
      · exact .opened ⟨.start, rfl, rfl, rfl, Or.inl rfl, if_pos hpos⟩
      · exact .aborted threadCountCheck (if_neg hpos) (.threadCount (Nat.eq_zero_of_not_pos hpos))
  | step s next _ runs hstep ih =>
      cases ih with
      | opened h => exact h.step hn hstep
      | closing q h => exact .closing q (h.step hn hstep)
      | aborted m failed h =>
          rw [runs] at failed
          exact absurd failed (by simp only [reduceCtorEq, not_false_eq_true])

end OwnedPool

open OwnedPool Pool

variable [DecidableEq W]

namespace Pool

section Settled

variable {w : W} {p next : Pool W T}

/-- Whether a worker runs changes in its sections only. -/
theorem running_setWorker (v : W) (worker : Worker T)
    (h : v = w → worker.running = (p.workers w).running) :
    ((p.setWorker v worker).workers w).running = (p.workers w).running := by
  by_cases hv : v = w
  · subst hv
    rw [setWorker_self]
    exact h rfl
  · rw [setWorker_other w v worker hv]

theorem running_postStep (v : W) (job : T) (who : Option Nat) :
    ((p.postStep v job who).workers w).running = (p.workers w).running :=
  (release_same w v).1

omit [DecidableEq W] in
theorem running_look (i active : Nat) :
    ((p.look i active).workers w).running = (p.workers w).running := by
  unfold look
  cases p.todo with
  | nil => rfl
  | cons job todo => rfl

theorem running_scheduleOn (v : W) (task : T) (h : ¬ p.Calls (p.scheduleOn v task) w) :
    ((p.scheduleOn v task).workers w).running = (p.workers w).running :=
  running_setWorker v _ fun hv => absurd ⟨task, hv ▸ rfl⟩ h

theorem running_completeOn (v : W) (task : T) (h : v ≠ w) :
    ((p.completeOn v task).workers w).running = (p.workers w).running :=
  running_setWorker v _ fun hv => absurd hv h

theorem External.running (hstep : External p next) (h : ¬ p.Calls next w) :
    (next.workers w).running = (p.workers w).running := by
  cases hstep with
  | direct task who signals => rfl
  | enqueue v task free none => exact running_scheduleOn v task h
  | begin_ v task next free some => exact running_scheduleOn v task h

theorem Internal.running (hstep : Internal p next) (helsewhere : p.Elsewhere next)
    (h : ¬ p.Calls next w) : (next.workers w).running = (p.workers w).running := by
  cases hstep with
  | finish before after v next who call signals => exact running_postStep v next who
  | first i phase => exact running_look i _
  | again i phase => exact running_look i _
  | relook i phase => exact running_look i _
  | enqueue i job v task phase free none => exact running_scheduleOn v task h
  | begin_ i job v task next phase free some => exact running_scheduleOn v task h
  | posts i job v next who phase signals => exact running_postStep v next who
  | complete i v task phase free none =>
      exact (helsewhere.not_set i _ _ phase (Or.inr rfl)
        (by simp only [ne_eq, reduceCtorEq, not_false_eq_true]) rfl).elim
  | beginNext i v task next phase free some =>
      exact (helsewhere.not_set i _ _ phase (Or.inr rfl)
        (by simp only [ne_eq, reduceCtorEq, not_false_eq_true]) rfl).elim
  | postsNext i v task next who phase signals => exact running_postStep v next who
  | _ => rfl

/-- A worker that does not run has finished, and nothing of it is in hand. -/
theorem finished_of_running {n : Nat} (h : Pool.Reach n p)
    (hrunning : (p.workers w).running = false) :
    p.share w = 0 ∧ history .completed w p.log = history .scheduled w p.log := by
  rcases serialises_reach w n p h with ⟨turn, finished, hserial⟩
  have hturn : turn = .idle := by
    rw [hserial.running] at hrunning
    cases turn with
    | idle => rfl
    | _ => exact absurd hrunning (by simp only [Turn.isIdle, Bool.not_false, reduceCtorEq,
        not_false_eq_true])
  subst hturn
  refine ⟨hserial.share, ?_⟩
  rw [hserial.completed, hserial.scheduled, hserial.steps rfl, Turn.task, List.append_nil,
    List.append_nil]

/-- In an idle pool no worker runs. -/
theorem Idle.running {n : Nat} (hn : n < 2 ^ 64) (h : Pool.Reach n p) (hidle : Idle p)
    (halone : p.external = []) : (p.workers w).running = false := by
  have hthreads : total (Thread.share w) p.threads = 0 := by
    refine total_eq_zero _ _ fun t ht => ?_
    rcases hidle.threads (counted_reach n hn p h) t ht with rfl | rfl
    · rfl
    · rfl
  have hshare : p.share w = 0 := by
    rw [Pool.share, hthreads, hidle.todo, halone, total_nil, total_nil, add_zero, add_zero]
  rcases serialises_reach w n p h with ⟨turn, finished, hserial⟩
  have hzero := hserial.share.symm.trans hshare
  rw [hserial.running]
  cases turn with
  | idle => rfl
  | _ => simp at hzero

theorem Idle.directs {n : Nat} (hn : n < 2 ^ 64) (h : Pool.Reach n p) (hidle : Idle p) :
    directs .completed p.log = directs .scheduled p.log := by
  have hthreads : total Thread.own p.threads = 0 := by
    refine total_eq_zero _ _ fun t ht => ?_
    rcases hidle.threads (counted_reach n hn p h) t ht with rfl | rfl
    · rfl
    · rfl
  have hbalance := balanced_reach n p h
  rw [Pool.Balanced, hthreads, hidle.todo, total_nil, add_zero, add_zero] at hbalance
  exact hbalance.symm

end Settled

end Pool

/-- What is known of a state in the life of a pool. -/
structure ShutsDown (n : Nat) (s : OwnedPool W T) : Prop where
  /-- Three of the checks can fail, and for these reasons; the threads never
      find a job when they should join, and each is joinable. A worker is used
      after its end only by a job that it had left running. -/
  checks : ∀ m, s.failed = some m → Aborted n s m
  /-- After `WaitUntilIdle` the destructor passes its check. -/
  waited : s.failed = none → s.owner = .waited → (s.destroy none).failed = none
  /-- A task does not get past the check. -/
  within : s.failed = none → ∀ i job, s.shouldJoin = false →
    s.pool.threads[i]? = some (.calling job) → (s.destroy (some i)).failed = some idleCheck
  /-- A worker that was destroyed is left as it was. If it did not run, it had
      finished, and no job is there to find its marker cleared; if it did, the
      pool is not idle again before one does. -/
  gone : s.failed = none → ∀ w ∈ s.gone,
    ((s.pool.workers w).running = false →
      s.pool.share w = 0 ∧ history .completed w s.pool.log = history .scheduled w s.pool.log) ∧
    (s.pool.idleCondition = true → s.pool.external = [] → (s.pool.workers w).running = false) ∧
    ∀ next, Step s next → (next.pool.workers w).running = (s.pool.workers w).running
  /-- Past the check all work is done, and no closure holds a worker. -/
  finished : s.failed = none → s.shouldJoin = true → s.pool.todo = [] ∧
    directs .completed s.pool.log = directs .scheduled s.pool.log ∧
    ∀ w, s.pool.share w = 0 ∧ history .completed w s.pool.log = history .scheduled w s.pool.log
  /-- All runs of the destructor come to its end, after so many steps. -/
  ends : s.failed = none → s.shouldJoin = true → s.left ≤ 2 * n + 1 ∧
    ∀ k next, Steps Step s k next → next.failed = none ∧ k ≤ s.left ∧
      (k = s.left ↔ next.owner = .destroyed) ∧ (k < s.left → ∃ more, Step next more)
  /-- The destructor returns after all threads have, and it has joined them. -/
  joins : s.failed = none → s.owner = .destroyed → ∀ i < n, i ∈ s.exited ∧ i ∈ s.joined

namespace OwnedPool

section States

variable {n : Nat} {q : Pool W T} {s next : OwnedPool W T}

theorem Closing.running (hn : n < 2 ^ 64) (h : Closing n q s) (w : W) :
    (s.pool.workers w).running = false := by
  have hrunning : (q.workers w).running = false := h.idle.running hn h.reach h.alone
  rw [h.pool]
  exact hrunning

/-- What was known of the pool at the check still is. -/
theorem Closing.share (hn : n < 2 ^ 64) (h : Closing n q s) (w : W) : s.pool.share w = 0 := by
  have hthreads : total (Thread.share w) s.pool.threads = 0 := by
    refine total_eq_zero _ _ fun t ht => ?_
    rcases List.mem_iff_getElem?.mp ht with ⟨i, hi⟩
    rw [h.released hn i t hi]
    rfl
  have halone : s.pool.external = [] := by
    rw [h.pool]
    exact h.alone
  rw [Pool.share, hthreads, h.todo, halone, total_nil, total_nil, add_zero, add_zero]

theorem Closing.finished (hn : n < 2 ^ 64) (h : Closing n q s) (w : W) :
    history .completed w s.pool.log = history .scheduled w s.pool.log := by
  rw [h.pool]
  exact (finished_of_running h.reach (h.idle.running hn h.reach h.alone)).2

/-- No step touches a worker that was destroyed. -/
theorem Open.frozen (hn : n < 2 ^ 64) (h : Open n s) (w : W) (hw : w ∈ s.gone)
    (hstep : Step s next) : (next.pool.workers w).running = (s.pool.workers w).running := by
  cases hstep with
  | external p owner step lives => exact step.running (lives w hw)
  | internal p step elsewhere lives => exact step.running elsewhere (lives w hw)
  | complete i v task phase checked lives free none =>
      exact running_completeOn v task fun hv => lives (hv ▸ hw)
  | beginNext i v task next phase checked lives free some =>
      exact running_completeOn v task fun hv => lives (hv ▸ hw)
  | postsNext i v task next who phase lives signals => exact running_postStep v next who
  | first i phase runs =>
      rw [OwnedPool.enter, look_open s i _ h.shouldJoin]
      exact running_look i _
  | again i phase runs =>
      rw [OwnedPool.enter, look_open s i _ h.shouldJoin]
      exact running_look i _
  | relook i phase runs =>
      rw [look_open s i _ h.shouldJoin]
      exact running_look i _
  -- what is destroyed is the pool, not a worker
  | destroy owner alone =>
      unfold OwnedPool.destroy
      by_cases hidle : s.pool.idleCondition = true
      · rw [if_pos hidle]
        rfl
      · rw [if_neg hidle]
  | destroyInTask i job owner alone phase => rw [h.destroyInTask hn i job phase]
  | join caller i owner thread returned =>
      rcases h.owner with hwork | ⟨hwait, _, _⟩
      · exact absurd (hwork.symm.trans owner) (by simp only [reduceCtorEq, not_false_eq_true])
      · exact absurd (hwait.symm.trans owner) (by simp only [reduceCtorEq, not_false_eq_true])
  | _ => rfl

theorem Open.shutsDown (hn : n < 2 ^ 64) (h : Open n s) : ShutsDown n s where
  checks m hm := absurd (h.failed.symm.trans hm) (by simp only [reduceCtorEq, not_false_eq_true])
  waited _ hwaited := by
    rcases h.owner with hwork | ⟨_, hidle, _⟩
    · exact absurd (hwork.symm.trans hwaited) (by simp only [reduceCtorEq, not_false_eq_true])
    · unfold OwnedPool.destroy
      rw [if_pos ((idleCondition_iff _).mpr hidle)]
      exact h.failed
  within _ i job _ phase := by rw [h.destroyInTask hn i job phase]
  gone _ w hw := ⟨finished_of_running h.reach,
    fun hidle halone => ((idleCondition_iff _).mp hidle).running hn h.reach halone,
    fun _ hstep => h.frozen hn w hw hstep⟩
  finished _ hjoin := absurd (h.shouldJoin.symm.trans hjoin) Bool.false_ne_true
  ends _ hjoin := absurd (h.shouldJoin.symm.trans hjoin) Bool.false_ne_true
  joins _ hdone := by
    rcases h.owner with hwork | ⟨hwait, _, _⟩
    · exact absurd (hwork.symm.trans hdone) (by simp only [reduceCtorEq, not_false_eq_true])
    · exact absurd (hwait.symm.trans hdone) (by simp only [reduceCtorEq, not_false_eq_true])

theorem Closing.shutsDown (hn : n < 2 ^ 64) (h : Closing n q s) : ShutsDown n s where
  checks m hm := absurd (h.failed.symm.trans hm) (by simp only [reduceCtorEq, not_false_eq_true])
  waited _ hwaited := absurd (Or.inr hwaited) h.not_open
  within _ _ _ hjoin := absurd (h.shouldJoin.symm.trans hjoin) (Ne.symm Bool.false_ne_true)
  gone _ w _ := ⟨fun _ => ⟨h.share hn w, h.finished hn w⟩, fun _ _ => h.running hn w,
    fun _ hstep => ((h.step hn hstep).running hn w).trans (h.running hn w).symm⟩
  finished _ _ := by
    have hdirects : Pool.directs .completed q.log = Pool.directs .scheduled q.log :=
      h.idle.directs hn h.reach
    refine ⟨h.todo, ?_, fun w => ⟨h.share hn w, h.finished hn w⟩⟩
    rw [h.pool]
    exact hdirects
  ends _ _ := by
    refine ⟨h.left_le hn, fun k next hrun => ?_⟩
    rcases (countdown n hn q).run s next k h hrun with ⟨hnext, hleft⟩
    refine ⟨hnext.failed, by omega, ?_, (countdown n hn q).continues s next k h hrun⟩
    rw [← hnext.left_eq_zero_iff hn]
    omega
  joins _ hdone := by
    rcases h.owner with ⟨i, hjoin, _, _⟩ | ⟨_, hall⟩
    · exact absurd (hjoin.symm.trans hdone) (by simp only [reduceCtorEq, not_false_eq_true])
    · exact fun i hi => ⟨h.returned i (hall i hi), hall i hi⟩

end States

end OwnedPool

/-- Only checks that the documentation speaks of can fail, only a worker that
    was left running is used after its end, and the destructor that gets past
    its own check joins all threads. The number of threads is a `size_t`. -/
theorem shuts_down (n : Nat) (hn : n < 2 ^ 64) (s : OwnedPool W T) (h : OwnedPool.Reach n s) :
    ShutsDown n s := by
  cases life_reach n hn s h with
  | opened h => exact h.shutsDown hn
  | closing q h => exact h.shutsDown hn
  | aborted m failed h =>
      have hnone : s.failed ≠ none := by
        rw [failed]
        simp only [ne_eq, reduceCtorEq, not_false_eq_true]
      exact ⟨fun m' hm => Option.some.inj (failed.symm.trans hm) ▸ h, fun hs => absurd hs hnone,
        fun hs => absurd hs hnone, fun hs => absurd hs hnone, fun hs => absurd hs hnone,
        fun hs => absurd hs hnone, fun hs => absurd hs hnone⟩

section Runs

variable {n : Nat} {s : OwnedPool W T}

omit [DecidableEq W] in
/-- A step of a thread in the middle of its job. -/
theorem Pool.Elsewhere.set {p next : Pool W T} (i : Nat) (a b : Thread W T)
    (phase : p.threads[i]? = some a) (ha : a.looks = false ∧ a.ends = false)
    (hnext : next.threads = p.threads.set i b) : p.Elsewhere next := by
  intro j t hj ht
  by_cases hij : i = j
  · subst hij
    rw [phase, Option.some.injEq] at hj
    rw [← hj, ha.1, ha.2] at ht
    simp only [Bool.false_eq_true, or_self] at ht
  · rw [hnext, List.getElem?_set_ne hij, hj]

/-- The same before any worker is destroyed. -/
theorem OwnedPool.Reach.works (h : OwnedPool.Reach n s) (i : Nat) (a b : Thread W T)
    (p : Pool W T) (runs : s.failed = none) (hgone : s.gone = [])
    (phase : s.pool.threads[i]? = some a) (hstep : Internal s.pool p)
    (ha : a.looks = false ∧ a.ends = false) (hnext : p.threads = s.pool.threads.set i b) :
    OwnedPool.Reach n { s with pool := p } := by
  refine .step s _ h runs (.internal p hstep (.set i a b phase ha hnext) ?_)
  rw [hgone]
  exact fun w hw => absurd hw List.not_mem_nil

end Runs

/-- A worker that is destroyed between the check of its job and the section. -/
example : ∃ s : OwnedPool Unit Nat, OwnedPool.Reach 1 s ∧ s.failed = some destroyedWorker := by
  have hbegun : OwnedPool.Reach 1 _ := .step _ _ (.create (W := Unit) (T := Nat)) rfl
    (.external _ (Or.inl rfl) (.begin_ () 8 8 rfl rfl) (fun _ hw => absurd hw List.not_mem_nil))
  have hposted := OwnedPool.Reach.step _ _ hbegun rfl
    (.internal _ (.finish [] [] () 8 none rfl (by unfold Signals; decide)) (fun _ _ h _ => h)
      (fun _ hw => absurd hw List.not_mem_nil))
  have hfirst := OwnedPool.Reach.step _ _ hposted rfl (.first 0 rfl List.not_mem_nil)
  have hreturned := hfirst.works 0 (.calling (.step () 8)) (.returned (.step () 8)) _ rfl rfl rfl
    (.return_ 0 (.step () 8) rfl) ⟨rfl, rfl⟩ rfl
  have hmarked := OwnedPool.Reach.step _ _ hreturned rfl
    (.check 0 () 8 rfl List.not_mem_nil List.not_mem_nil)
  have hdropped := OwnedPool.Reach.step _ _ hmarked rfl
    (.drop () (Or.inl rfl) List.not_mem_nil
      ⟨fun _ => List.not_mem_nil, fun job next =>
        show (.posting job () next : Thread Unit Nat) ∉ [.returned (.step () 8)] by
          simp only [List.mem_singleton, reduceCtorEq, not_false_eq_true]⟩)
  exact ⟨_, .step _ _ hdropped rfl (.useAfterFree 0 ()
    (Or.inl ⟨8, rfl, List.mem_singleton_self 0⟩) (List.mem_singleton_self ())), rfl⟩

/-- A task of the pool and one of a worker, in a pool of two threads; then the
    worker is destroyed, and the pool. -/
theorem shuts_down_joined : ∃ s : OwnedPool Unit Nat, s.owner = .destroyed ∧ s.gone = [()] ∧
    s.exited = [0, 1] ∧ s.joined = [1, 0] ∧ directs .completed s.pool.log = {7} ∧
    history .completed () s.pool.log = [8] ∧ ShutsDown 2 s := by
  have hdirect : OwnedPool.Reach 2 _ := .step _ _ (.create (W := Unit) (T := Nat)) rfl
    (.external _ (Or.inl rfl) (.direct 7 none (by unfold Signals; decide))
      (fun _ hw => absurd hw List.not_mem_nil))
  have hbegun := OwnedPool.Reach.step _ _ hdirect rfl
    (.external _ (Or.inl rfl) (.begin_ () 8 8 rfl rfl) (fun _ hw => absurd hw List.not_mem_nil))
  have hposted := OwnedPool.Reach.step _ _ hbegun rfl
    (.internal _ (.finish [] [] () 8 none rfl (by unfold Signals; decide)) (fun _ _ h _ => h)
      (fun _ hw => absurd hw List.not_mem_nil))
  have hfirst := OwnedPool.Reach.step _ _ hposted rfl (.first 0 rfl List.not_mem_nil)
  have hsecond := OwnedPool.Reach.step _ _ hfirst rfl (.first 1 rfl List.not_mem_nil)
  -- The two tasks return, and the worker's job finds its marker set.
  have hreturned := hsecond.works 1 (.calling (.step () 8)) (.returned (.step () 8)) _ rfl rfl rfl
    (.return_ 1 (.step () 8) rfl) ⟨rfl, rfl⟩ rfl
  have hmarked := OwnedPool.Reach.step _ _ hreturned rfl
    (.check 1 () 8 rfl List.not_mem_nil List.not_mem_nil)
  have hcalled := hmarked.works 0 (.calling (.direct 7)) (.returned (.direct 7)) _ rfl rfl rfl
    (.return_ 0 (.direct 7) rfl) ⟨rfl, rfl⟩ rfl
  have hsection := OwnedPool.Reach.step _ _ hcalled rfl
    (.complete 1 () 8 rfl (List.mem_singleton_self 1) List.not_mem_nil rfl rfl)
  have hcompleted := hsection.works 0 (.returned (.direct 7)) (.destroying (.direct 7)) _ rfl rfl
    rfl (.completeDirect 0 7 rfl) ⟨rfl, rfl⟩ rfl
  have hstep := hcompleted.works 1 (.destroying (.step () 8)) .ready _ rfl rfl rfl
    (.destroy 1 (.step () 8) rfl) ⟨rfl, rfl⟩ rfl
  have hjob := hstep.works 0 (.destroying (.direct 7)) .ready _ rfl rfl rfl
    (.destroy 0 (.direct 7) rfl) ⟨rfl, rfl⟩ rfl
  have hlooked := OwnedPool.Reach.step _ _ hjob rfl (.again 1 rfl List.not_mem_nil)
  have hwaiting := OwnedPool.Reach.step _ _ hlooked rfl (.again 0 rfl List.not_mem_nil)
  -- The owner waits until the pool is idle, and destroys the worker and the pool.
  have hwaited := OwnedPool.Reach.step _ _ hwaiting rfl (.wait (Or.inl rfl) rfl rfl)
  have hdropped := OwnedPool.Reach.step _ _ hwaited rfl
    (.drop () (Or.inr rfl) List.not_mem_nil
      ⟨fun _ => List.not_mem_nil, fun job next =>
        show (.posting job () next : Thread Unit Nat) ∉ [.waiting, .waiting] by
          simp only [List.mem_cons, reduceCtorEq, List.not_mem_nil, or_self, not_false_eq_true]⟩)
  have hchecked := OwnedPool.Reach.step _ _ hdropped rfl (.destroy (Or.inr rfl) rfl)
  have hone := OwnedPool.Reach.step _ _ hchecked rfl (.relook 1 rfl List.not_mem_nil)
  have hboth := OwnedPool.Reach.step _ _ hone rfl (.relook 0 rfl (by decide))
  have hjoined := OwnedPool.Reach.step _ _ hboth rfl
    (.join none 0 rfl Nat.two_pos (fun _ _ => List.mem_cons_self))
  have hlast := OwnedPool.Reach.step _ _ hjoined rfl
    (.join none 1 rfl Nat.one_lt_two (fun _ _ => by decide))
  have hdone := OwnedPool.Reach.step _ _ hlast rfl (.done none 2 rfl (Nat.le_refl 2))
  exact ⟨_, rfl, rfl, rfl, rfl, rfl, rfl, shuts_down 2 (by decide) _ hdone⟩

end RxCppUniq
