import RxCppUniq.Scheduling.Workers

/-!
# Idle Means Finished

`WaitUntilIdle` waits until the queue of the pool is empty and no thread is
active. The count of active threads begins with the number of threads, before
there are any, and a thread takes itself off it each time it looks for a job.
So it counts the threads that are not in that search: those that have not
begun and those that have a job.

An idle pool has nothing in hand of any worker, and the state of each worker
is known from what is in hand of it. For the tasks scheduled on the pool
itself the balance of those scheduled and those completed is kept.

## Main definitions

* `Thread.active`: The weight of a thread in the count.
* `Pool.Counted`: The count is that of the active threads.
* `Pool.directs`: The tasks of the pool itself that have got to a stage.
* `Pool.Idle`: The condition `WaitUntilIdle` waits for.
* `IdleFinished`: What the condition means.

## Theorems

* `Pool.Counted.external`, `Pool.Counted.internal`: The count is kept.
* `idle_finished`: An idle pool has finished, and stays idle by itself.
-/

namespace RxCppUniq

open Theory

variable {W T : Type}

/-- A thread is active unless it has released its last job and looks for the
    next. -/
def Thread.active : Thread W T → Nat
  | .starting => 1
  | .waiting => 0
  | .released => 0
  | .calling _ => 1
  | .posting _ _ _ => 1
  | .returned _ => 1
  | .completing _ _ _ => 1
  | .destroying _ => 1
  | .ready => 1

theorem Thread.active_le_one (t : Thread W T) : t.active ≤ 1 := by
  cases t <;> simp only [Thread.active, Nat.le_refl, Nat.zero_le]

namespace Pool

/-- The count of active threads is right. -/
structure Counted (n : Nat) (p : Pool W T) : Prop where
  count : p.activeCount = total Thread.active p.threads
  threads : p.threads.length = n

namespace Counted

variable {n : Nat} {p q : Pool W T}

theorem le (h : Counted n p) : p.activeCount ≤ n := by
  rw [h.count, ← h.threads]
  exact total_le_length _ _ Thread.active_le_one

/-- Neither a job in the queue nor the release of a thread is counted. -/
theorem post (h : Counted n p) (job : Job W T) (who : Option Nat) (hsignals : p.Signals who) :
    Counted n (p.post job who) := by
  cases who with
  | none => exact ⟨h.count, h.threads⟩
  | some i =>
      refine ⟨?_, ?_⟩
      · have hset := total_set Thread.active p.threads i .waiting .released hsignals
        rw [Thread.active, Thread.active, add_zero, add_zero] at hset
        exact h.count.trans hset.symm
      · exact (List.length_set ..).trans h.threads

/-- A thread moves on that is counted before and after, or neither. -/
theorem moves (h : Counted n p) (i : Nat) (a b : Thread W T) (phase : p.threads[i]? = some a)
    (hab : a.active = b.active) : Counted n (p.setThread i b) := by
  refine ⟨?_, (List.length_set ..).trans h.threads⟩
  have hset := total_set Thread.active p.threads i a b phase
  rw [hab] at hset
  exact h.count.trans (Nat.add_right_cancel hset).symm

/-- A thread that is not counted looks for a job. -/
theorem look (hlength : p.threads.length = n) (hn : n < 2 ^ 64) (i : Nat) (a : Thread W T)
    (active : Nat) (phase : p.threads[i]? = some a)
    (hactive : active + a.active = total Thread.active p.threads) :
    Counted n (p.look i active) := by
  have hset (b : Thread W T) := total_set Thread.active p.threads i a b phase
  have hle : ∀ b, total Thread.active (p.threads.set i b) ≤ n := by
    intro b
    have hcount : (p.threads.set i b).length = p.threads.length := List.length_set ..
    rw [← hlength, ← hcount]
    exact total_le_length _ _ Thread.active_le_one
  unfold Pool.look
  cases p.todo with
  | nil =>
      refine ⟨?_, (List.length_set ..).trans hlength⟩
      have hwait := hset .waiting
      rw [show (Thread.waiting : Thread W T).active = 0 from rfl, add_zero] at hwait
      change active = total Thread.active (p.threads.set i .waiting)
      omega
  | cons job todo =>
      refine ⟨?_, (List.length_set ..).trans hlength⟩
      have hcall := hset (.calling job)
      have hbound := hle (.calling job)
      rw [show (Thread.calling job).active = 1 from rfl] at hcall
      change (active + 1) % 2 ^ 64 = total Thread.active (p.threads.set i (.calling job))
      rw [Nat.mod_eq_of_lt (by omega)]
      omega

/-- The section at the head of the loop. The thread was counted, so the
    decrement does not wrap. -/
theorem enter (h : Counted n p) (hn : n < 2 ^ 64) (i : Nat) (a : Thread W T)
    (phase : p.threads[i]? = some a) (ha : a.active = 1) : Counted n (p.enter i) := by
  have hpos := le_total Thread.active p.threads i a phase
  have hle := h.le
  have hcount := h.count
  have hwrap : (p.activeCount + (2 ^ 64 - 1)) % 2 ^ 64 = p.activeCount - 1 := by
    rw [show p.activeCount + (2 ^ 64 - 1) = p.activeCount - 1 + 2 ^ 64 by omega,
      Nat.add_mod_right]
    exact Nat.mod_eq_of_lt (by omega)
  unfold Pool.enter
  rw [hwrap]
  exact look h.threads hn i a _ phase (by omega)

variable [DecidableEq W]

theorem external (h : Counted n p) (hstep : External p q) : Counted n q := by
  cases hstep with
  | direct task who signals =>
      exact Counted.post (p := p.note .scheduled (.direct task)) ⟨h.count, h.threads⟩ _ who signals
  | enqueue v task free none => exact ⟨h.count, h.threads⟩
  | begin_ v task next free some => exact ⟨h.count, h.threads⟩

theorem internal (h : Counted n p) (hn : n < 2 ^ 64) (hstep : Internal p q) : Counted n q := by
  have hkeep : ∀ r : Pool W T, r.threads = p.threads → r.activeCount = p.activeCount →
      Counted n r := by
    intro r hthreads hcount
    refine ⟨?_, ?_⟩
    · rw [hthreads, hcount]
      exact h.count
    · rw [hthreads]
      exact h.threads
  cases hstep with
  | finish before after v next who call signals =>
      exact Counted.post (hkeep (setWorker { p with external := before ++ after } v _) rfl rfl)
        (.step v next) who signals
  | wake i phase => exact h.moves i _ _ phase rfl
  | first i phase => exact h.enter hn i _ phase rfl
  | again i phase => exact h.enter hn i _ phase rfl
  | relook i phase => exact look h.threads hn i _ _ phase h.count
  | direct i job task who phase signals =>
      exact Counted.post (hkeep (p.note .scheduled (.direct task)) rfl rfl) _ who signals
  | enqueue i job v task phase free none => exact hkeep _ rfl rfl
  | begin_ i job v task next phase free some =>
      exact Counted.moves (hkeep (p.scheduleOn v task) rfl rfl) i _ _ phase rfl
  | posts i job v next who phase signals =>
      have hmoved := h.moves i _ (.calling job) phase rfl
      refine Counted.post (p := (p.setThread i (.calling job)).setWorker v _)
        ⟨hmoved.count, hmoved.threads⟩ (.step v next) who ?_
      exact signals.setThread i _ _ phase (by simp only [ne_eq, reduceCtorEq, not_false_eq_true])
        (by simp only [ne_eq, reduceCtorEq, not_false_eq_true])
  | return_ i job phase =>
      have hmoved := h.moves i _ (.returned job) phase rfl
      exact ⟨hmoved.count, hmoved.threads⟩
  | completeDirect i task phase =>
      have hmoved := h.moves i _ (.destroying (.direct task)) phase rfl
      exact ⟨hmoved.count, hmoved.threads⟩
  | complete i v task phase free none =>
      exact Counted.moves (hkeep (p.completeOn v task) rfl rfl) i _ _ phase rfl
  | beginNext i v task next phase free some =>
      exact Counted.moves (hkeep (p.completeOn v task) rfl rfl) i _ _ phase rfl
  | postsNext i v task next who phase signals =>
      have hmoved := h.moves i _ (.destroying (.step v task)) phase rfl
      refine Counted.post (p := (p.setThread i (.destroying (.step v task))).setWorker v _)
        ⟨hmoved.count, hmoved.threads⟩ (.step v next) who ?_
      exact signals.setThread i _ _ phase (by simp only [ne_eq, reduceCtorEq, not_false_eq_true])
        (by simp only [ne_eq, reduceCtorEq, not_false_eq_true])
  | destroy i job phase =>
      have hmoved := h.moves i _ .ready phase rfl
      exact ⟨hmoved.count, hmoved.threads⟩

end Counted

/-- The tasks of the pool itself that have got to a stage. -/
def directs (stage : Stage) : List (Stage × Job W T) → Multiset T
  | [] => 0
  | (s, .direct task) :: log => directs stage log + if s = stage then {task} else 0
  | (_, .step _ _) :: log => directs stage log

/-- `IdleCondition`. -/
structure Idle (p : Pool W T) : Prop where
  todo : p.todo = []
  activeCount : p.activeCount = 0

end Pool

/-- The task of a job of the pool itself. -/
def Job.own : Job W T → Multiset T
  | .direct task => {task}
  | .step _ _ => 0

/-- The task of the pool itself that a thread has not completed. -/
def Thread.own : Thread W T → Multiset T
  | .starting => 0
  | .waiting => 0
  | .released => 0
  | .calling job => job.own
  | .posting job _ _ => job.own
  | .returned job => job.own
  | .completing _ _ _ => 0
  | .destroying _ => 0
  | .ready => 0

namespace Pool

/-- The tasks of the pool itself that were scheduled and not completed are in
    the queue or with a thread. -/
def Balanced (p : Pool W T) : Prop :=
  directs .scheduled p.log =
    directs .completed p.log + (total Thread.own p.threads + total Job.own p.todo)

namespace Balanced

variable {p q : Pool W T}

theorem start (n : Nat) : Balanced (start n : Pool W T) := by
  have hthreads : total Thread.own (List.replicate n (Thread.starting : Thread W T)) = 0 :=
    total_eq_zero _ _ fun a ha => (List.eq_of_mem_replicate ha) ▸ rfl
  simp only [Balanced, Pool.start, directs, hthreads, total_nil, add_zero]

/-- What is in the queue, with the threads and in the log is all that
    matters. -/
theorem same (h : Balanced p) (hscheduled : directs .scheduled q.log = directs .scheduled p.log)
    (hcompleted : directs .completed q.log = directs .completed p.log)
    (hown : total Thread.own q.threads + total Job.own q.todo =
      total Thread.own p.threads + total Job.own p.todo) : Balanced q := by
  unfold Balanced
  rw [hscheduled, hcompleted, hown]
  exact h

/-- The task a thread has in hand is the same before and after. -/
theorem own_setThread (i : Nat) (a b : Thread W T) (phase : p.threads[i]? = some a)
    (hab : a.own = b.own) :
    total Thread.own (p.setThread i b).threads = total Thread.own p.threads := by
  have hset := total_set Thread.own p.threads i a b phase
  rw [hab] at hset
  exact add_right_cancel hset

theorem own_post (job : Job W T) (who : Option Nat) (hsignals : p.Signals who) :
    total Thread.own (p.post job who).threads + total Job.own (p.post job who).todo =
      total Thread.own p.threads + total Job.own p.todo + job.own := by
  have hthreads : total Thread.own (p.post job who).threads = total Thread.own p.threads := by
    cases who with
    | none => rfl
    | some i => exact own_setThread (p := p) i .waiting .released hsignals rfl
  rw [hthreads, add_assoc]
  simp only [post, total_append, total_cons, total_nil, add_zero]

theorem directPost (h : Balanced p) (task : T) (who : Option Nat) (hsignals : p.Signals who) :
    Balanced ((p.note .scheduled (.direct task)).post (.direct task) who) := by
  unfold Balanced
  rw [own_post (p := p.note .scheduled (.direct task)) _ who hsignals]
  simp only [post, note, directs, if_true, reduceCtorEq, if_false, add_zero, Job.own]
  rw [h, add_assoc]

theorem look (h : Balanced p) (i : Nat) (a : Thread W T) (active : Nat)
    (phase : p.threads[i]? = some a) (hnone : a.own = 0) : Balanced (p.look i active) := by
  unfold Pool.look
  cases htodo : p.todo with
  | nil =>
      refine h.same rfl rfl ?_
      exact congrArg (· + total Job.own p.todo) (own_setThread i a .waiting phase hnone)
  | cons job todo =>
      have hset := total_set Thread.own p.threads i a (.calling job) phase
      rw [hnone, add_zero] at hset
      have hlog : ∀ stage, stage ≠ .started →
          directs stage ((.started, job) :: p.log) = directs stage p.log := by
        intro stage hne
        cases job with
        | direct task => rw [directs, if_neg (Ne.symm hne), add_zero]
        | step v task => rfl
      refine h.same (hlog _ (by decide)) (hlog _ (by decide)) ?_
      change total Thread.own (p.threads.set i (.calling job)) + total Job.own todo = _
      rw [hset, htodo, total_cons, add_assoc]
      rfl

variable [DecidableEq W]

theorem external (h : Balanced p) (hstep : External p q) : Balanced q := by
  cases hstep with
  | direct task who signals => exact h.directPost task who signals
  | enqueue v task free none => exact h.same rfl rfl rfl
  | begin_ v task next free some => exact h.same rfl rfl rfl

theorem internal (h : Balanced p) (hstep : Internal p q) : Balanced q := by
  -- A job at a stage that is not counted, or of a worker.
  have hskip : ∀ (stage s : Stage) (job : Job W T), s ≠ stage →
      directs stage ((s, job) :: p.log) = directs stage p.log := by
    intro stage s job hne
    cases job with
    | direct task => rw [directs, if_neg hne, add_zero]
    | step v task => rfl
  cases hstep with
  | finish before after v next who call signals =>
      refine h.same rfl rfl ?_
      exact (own_post (p := setWorker { p with external := before ++ after } v _) (.step v next) who
        signals).trans (add_zero _)
  | wake i phase =>
      exact h.same rfl rfl (congrArg (· + _) (own_setThread i _ _ phase rfl))
  | first i phase => exact h.look i _ _ phase rfl
  | again i phase => exact h.look i _ _ phase rfl
  | relook i phase => exact h.look i _ _ phase rfl
  | direct i job task who phase signals => exact h.directPost task who signals
  | enqueue i job v task phase free none => exact h.same rfl rfl rfl
  | begin_ i job v task next phase free some =>
      exact h.same rfl rfl (congrArg (· + _) (own_setThread i _ (.posting job v next) phase rfl))
  | posts i job v next who phase signals =>
      refine h.same rfl rfl ?_
      refine (own_post (p := (p.setThread i (.calling job)).setWorker v _) (.step v next) who
        (signals.setThread i _ _ phase (by simp only [ne_eq, reduceCtorEq, not_false_eq_true])
          (by simp only [ne_eq, reduceCtorEq, not_false_eq_true]))).trans ?_
      exact (add_zero _).trans
        (congrArg (· + _) (own_setThread i _ (.calling job) phase rfl))
  | return_ i job phase =>
      exact h.same (hskip _ _ job (by decide)) (hskip _ _ job (by decide))
        (congrArg (· + _) (own_setThread i _ (.returned job) phase rfl))
  | completeDirect i task phase =>
      have hset := total_set Thread.own p.threads i _ (.destroying (.direct task)) phase
      unfold Balanced
      simp only [note, setThread, directs, reduceCtorEq, if_false, if_true, add_zero]
      rw [Thread.own, Thread.own, Job.own, add_zero] at hset
      rw [h, ← hset, add_assoc, add_assoc (directs .completed p.log),
        add_left_comm ({task} : Multiset T)]
  | complete i v task phase free none =>
      exact h.same rfl rfl (congrArg (· + _) (own_setThread i _ (.destroying _) phase rfl))
  | beginNext i v task next phase free some =>
      exact h.same rfl rfl
        (congrArg (· + _) (own_setThread i _ (.completing v task next) phase rfl))
  | postsNext i v task next who phase signals =>
      refine h.same rfl rfl ?_
      refine (own_post (p := (p.setThread i (.destroying (.step v task))).setWorker v _)
        (.step v next) who
        (signals.setThread i _ _ phase (by simp only [ne_eq, reduceCtorEq, not_false_eq_true])
          (by simp only [ne_eq, reduceCtorEq, not_false_eq_true]))).trans ?_
      exact (add_zero _).trans
        (congrArg (· + _) (own_setThread i _ (.destroying (.step v task)) phase rfl))
  | destroy i job phase =>
      exact h.same (hskip _ _ job (by decide)) (hskip _ _ job (by decide))
        (congrArg (· + _) (own_setThread i _ .ready phase rfl))

end Balanced

variable [DecidableEq W]

theorem balanced_reach (n : Nat) (p : Pool W T) (h : Reach n p) : Balanced p := by
  induction h with
  | start => exact .start n
  | external p next _ hstep ih => exact ih.external hstep
  | internal p next _ hstep ih => exact ih.internal hstep

theorem counted_reach (n : Nat) (hn : n < 2 ^ 64) (p : Pool W T) (h : Reach n p) :
    Counted n p := by
  induction h with
  | start =>
      refine ⟨?_, List.length_replicate⟩
      rw [start, total_replicate]
      exact (Nat.mul_one n).symm
  | external p next _ hstep ih => exact ih.external hstep
  | internal p next _ hstep ih => exact ih.internal hn hstep

omit [DecidableEq W] in
/-- In an idle pool no thread is active. -/
theorem Idle.inactive {n : Nat} {p : Pool W T} (h : Idle p) (hcount : Counted n p) (i : Nat)
    (t : Thread W T) (ht : p.threads[i]? = some t) : t.active = 0 := by
  have hle := le_total Thread.active p.threads i t ht
  rw [← hcount.count, h.activeCount] at hle
  exact Nat.le_zero.mp hle

omit [DecidableEq W] in
/-- It waits, or was released and has not looked. -/
theorem Idle.threads {n : Nat} {p : Pool W T} (h : Idle p) (hcount : Counted n p)
    (t : Thread W T) (ht : t ∈ p.threads) : t = .waiting ∨ t = .released := by
  rcases List.mem_iff_getElem?.mp ht with ⟨i, hi⟩
  have hzero := h.inactive hcount i t hi
  cases t with
  | waiting => exact Or.inl rfl
  | released => exact Or.inr rfl
  | _ => exact absurd hzero Nat.one_ne_zero

end Pool

open Pool

variable [DecidableEq W]

/-- What the condition of an idle pool means. -/
structure IdleFinished (p : Pool W T) : Prop where
  /-- The count is that of the threads that have not begun or have a job. -/
  count : p.activeCount = total Thread.active p.threads
  /-- No worker has anything left to do. -/
  workers : Idle p → p.external = [] → ∀ w, (p.workers w).running = false ∧
    (p.workers w).steps = [] ∧ history .completed w p.log = history .scheduled w p.log
  /-- All that was scheduled on the pool itself has completed. -/
  tasks : Idle p → p.external = [] → directs .completed p.log = directs .scheduled p.log
  /-- Only a call from outside brings work. -/
  stays : Idle p → p.external = [] → ∀ next, Internal p next → Idle next ∧ next.external = []

/-- An idle pool stays idle by itself. -/
theorem Pool.Idle.internal {n : Nat} {p next : Pool W T} (h : Idle p) (hcount : Counted n p)
    (hnone : p.external = []) (hstep : Internal p next) : Idle next ∧ next.external = [] := by
  have hactive := h.inactive hcount
  -- every other step is one of a thread that has a job, and no thread is counted
  cases hstep with
  | finish before after v next who call signals =>
      rw [hnone] at call
      exact absurd call.symm (by simp only [List.append_eq_nil_iff, reduceCtorEq, and_false,
        not_false_eq_true])
  | wake i phase => exact ⟨⟨h.todo, h.activeCount⟩, hnone⟩
  | relook i phase =>
      unfold Pool.look
      rw [h.todo]
      exact ⟨⟨h.todo, h.activeCount⟩, hnone⟩
  | first i phase => exact absurd (hactive i _ phase) Nat.one_ne_zero
  | again i phase => exact absurd (hactive i _ phase) Nat.one_ne_zero
  | direct i job task who phase signals => exact absurd (hactive i _ phase) Nat.one_ne_zero
  | enqueue i job v task phase free none => exact absurd (hactive i _ phase) Nat.one_ne_zero
  | begin_ i job v task next phase free some => exact absurd (hactive i _ phase) Nat.one_ne_zero
  | posts i job v next who phase signals => exact absurd (hactive i _ phase) Nat.one_ne_zero
  | return_ i job phase => exact absurd (hactive i _ phase) Nat.one_ne_zero
  | completeDirect i task phase => exact absurd (hactive i _ phase) Nat.one_ne_zero
  | complete i v task phase free none => exact absurd (hactive i _ phase) Nat.one_ne_zero
  | beginNext i v task next phase free some => exact absurd (hactive i _ phase) Nat.one_ne_zero
  | postsNext i v task next who phase signals => exact absurd (hactive i _ phase) Nat.one_ne_zero
  | destroy i job phase => exact absurd (hactive i _ phase) Nat.one_ne_zero

/-- An idle pool has finished, and stays idle by itself. The number of threads
    is a `size_t`. -/
theorem idle_finished (n : Nat) (hn : n < 2 ^ 64) (p : Pool W T) (h : Reach n p) :
    IdleFinished p := by
  have hcount := counted_reach n hn p h
  refine ⟨hcount.count, fun hidle hnone w => ?_, fun hidle _ => ?_,
    fun hidle hnone next hstep => hidle.internal hcount hnone hstep⟩
  · rcases serialises_reach w n p h with ⟨turn, finished, hserial⟩
    have hshare : p.share w = 0 := by
      have hthreads : total (Thread.share w) p.threads = 0 := by
        refine total_eq_zero _ _ fun t ht => ?_
        rcases hidle.threads hcount t ht with rfl | rfl <;> rfl
      rw [Pool.share, hthreads, hidle.todo, hnone, total_nil, total_nil, add_zero, add_zero]
    -- no share of the worker is anywhere, so it has no turn
    have hturn : turn = .idle := by
      have hzero := hserial.share.symm.trans hshare
      cases turn <;> simp at hzero
      rfl
    subst hturn
    refine ⟨hserial.running, hserial.steps rfl, ?_⟩
    rw [hserial.completed, hserial.scheduled, hserial.steps rfl, Turn.task, List.append_nil,
      List.append_nil]
  · have hthreads : total Thread.own p.threads = 0 := by
      refine total_eq_zero _ _ fun t ht => ?_
      rcases hidle.threads hcount t ht with rfl | rfl <;> rfl
    have hbalance := balanced_reach n p h
    rw [Pool.Balanced, hthreads, hidle.todo, total_nil, add_zero, add_zero] at hbalance
    exact hbalance.symm

/-- A task of the pool and one of a worker, taken up by two threads: when both
    have completed and the threads wait again, the pool is idle. -/
theorem idle_finished_waiting : ∃ p : Pool Unit Nat, Idle p ∧ p.threads = [.waiting, .waiting] ∧
    directs .completed p.log = {7} ∧ history .completed () p.log = [8] ∧ IdleFinished p := by
  have hdirect : Reach 2 _ := .external _ _ (.start (W := Unit) (T := Nat))
    (.direct 7 none (by unfold Signals; decide))
  have hbegun := Reach.external _ _ hdirect (.begin_ () 8 8 rfl rfl)
  have hposted := Reach.internal _ _ hbegun
    (.finish [] [] () 8 none rfl (by unfold Signals; decide))
  have hfirst := Reach.internal _ _ hposted (.first 0 rfl)
  have hsecond := Reach.internal _ _ hfirst (.first 1 rfl)
  have hreturned := Reach.internal _ _ hsecond (.return_ 1 (.step () 8) rfl)
  have hcalled := Reach.internal _ _ hreturned (.return_ 0 (.direct 7) rfl)
  have hsection := Reach.internal _ _ hcalled (.complete 1 () 8 rfl rfl rfl)
  have hcompleted := Reach.internal _ _ hsection (.completeDirect 0 7 rfl)
  have hstep := Reach.internal _ _ hcompleted (.destroy 1 (.step () 8) rfl)
  have hjob := Reach.internal _ _ hstep (.destroy 0 (.direct 7) rfl)
  have hlooked := Reach.internal _ _ hjob (.again 1 rfl)
  have hwaiting := Reach.internal _ _ hlooked (.again 0 rfl)
  exact ⟨_, ⟨rfl, rfl⟩, rfl, rfl, rfl, idle_finished 2 (by decide) _ hwaiting⟩

end RxCppUniq
