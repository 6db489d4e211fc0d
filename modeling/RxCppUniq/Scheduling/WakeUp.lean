import Mathlib.Logic.Relation
import RxCppUniq.Base.Scheduler
import RxCppUniq.Theory.Total

/-!
# No Lost Wake-Up

`Schedule` signals one thread for each job, and the job may be taken by
another thread before the one that was released gets to look. What matters is
that there are enough threads awake: as long as some thread waits, there are
at least as many threads that are going to look at the queue as there are
jobs in it.

A signal releases one thread for one job. A thread that takes a job is one
less, and so is the job. And a thread only begins to wait when the queue is
empty.

## Main definitions

* `Thread.awake`, `Thread.executing`: The weights of threads that are going to
  look for a job, and of those that have one.
* `Pool.Roused`: Enough threads are awake.
* `Pool.Takes`: A thread that is awake takes a job.
* `WorkConserving`: What follows for a state of the pool.

## Theorems

* `Pool.Roused.external`, `Pool.Roused.internal`: The steps of the pool.
* `work_conserving`: The pool has no lost wake-up and is work conserving.
-/

namespace RxCppUniq

open Theory

variable {W T : Type}

/-- A thread that is not executing a job and is going to look for one without
    being released: it has not begun, has finished a job, or was released. -/
def Thread.awake : Thread W T → Nat
  | .starting => 1
  | .waiting => 0
  | .released => 1
  | .calling _ => 0
  | .posting _ _ _ => 0
  | .returned _ => 0
  | .completing _ _ _ => 0
  | .destroying _ => 0
  | .ready => 1

def Thread.executing : Thread W T → Nat
  | .starting => 0
  | .waiting => 0
  | .released => 0
  | .calling _ => 1
  | .posting _ _ _ => 1
  | .returned _ => 1
  | .completing _ _ _ => 1
  | .destroying _ => 1
  | .ready => 0

namespace Pool

/-- If some thread waits, enough threads are awake for the jobs queued. -/
def Roused (p : Pool W T) : Prop :=
  .waiting ∈ p.threads → p.todo.length ≤ total Thread.awake p.threads

namespace Roused

variable {p q : Pool W T}

/-- A thread moves on that is not awake less than before, and does not begin
    to wait. -/
theorem moves (h : Roused p) (i : Nat) (a b : Thread W T) (phase : p.threads[i]? = some a)
    (hb : b ≠ .waiting) (hle : a.awake ≤ b.awake) : Roused (p.setThread i b) := by
  intro hwaiting
  have hset := total_set Thread.awake p.threads i a b phase
  rcases List.mem_or_eq_of_mem_set hwaiting with hmem | heq
  · have hold := h hmem
    change p.todo.length ≤ total Thread.awake (p.threads.set i b)
    omega
  · exact absurd heq.symm hb

/-- A job is queued, and a thread is released for it. -/
theorem post (h : Roused p) (job : Job W T) (who : Option Nat) (hsignals : p.Signals who) :
    Roused (p.post job who) := by
  intro hwaiting
  have hlength : (p.post job who).todo.length = p.todo.length + 1 :=
    List.length_append
  cases who with
  | none => exact absurd hwaiting hsignals
  | some i =>
      have hold := h (List.mem_of_getElem? hsignals)
      have hset := total_set Thread.awake p.threads i .waiting .released hsignals
      rw [Thread.awake, Thread.awake, add_zero] at hset
      rw [hlength]
      change p.todo.length + 1 ≤ total Thread.awake (p.threads.set i .released)
      omega

/-- A thread that is awake looks for a job. -/
theorem look (h : Roused p) (i : Nat) (a : Thread W T) (active : Nat)
    (phase : p.threads[i]? = some a) (ha : a.awake = 1) : Roused (p.look i active) := by
  unfold Pool.look
  cases htodo : p.todo with
  | nil =>
      intro _
      change p.todo.length ≤ _
      rw [htodo]
      exact Nat.zero_le _
  | cons job todo =>
      intro hwaiting
      rcases List.mem_or_eq_of_mem_set hwaiting with hmem | heq
      · have hold := h hmem
        rw [htodo, List.length_cons] at hold
        have hset := total_set Thread.awake p.threads i a (.calling job) phase
        rw [ha, show (Thread.calling job).awake = 0 from rfl, add_zero] at hset
        change todo.length ≤ total Thread.awake (p.threads.set i (.calling job))
        omega
      · exact absurd heq (by simp only [reduceCtorEq, not_false_eq_true])

variable [DecidableEq W]

theorem external (h : Roused p) (hstep : External p q) : Roused q := by
  cases hstep with
  | direct task who signals => exact Roused.post (p := p.note .scheduled _) h _ who signals
  | enqueue v task free none => exact h
  | begin_ v task next free some => exact h

theorem internal (h : Roused p) (hstep : Internal p q) : Roused q := by
  cases hstep with
  | finish before after v next who call signals =>
      exact Roused.post (p := setWorker { p with external := before ++ after } v _) h
        (.step v next) who signals
  | wake i phase =>
      exact h.moves i _ _ phase (by simp only [ne_eq, reduceCtorEq, not_false_eq_true])
        (Nat.zero_le _)
  | first i phase => exact h.look i _ _ phase rfl
  | again i phase => exact h.look i _ _ phase rfl
  | relook i phase => exact h.look i _ _ phase rfl
  | direct i job task who phase signals =>
      exact Roused.post (p := p.note .scheduled _) h _ who signals
  | enqueue i job v task phase free none => exact h
  | begin_ i job v task next phase free some =>
      exact Roused.moves (p := p.scheduleOn v task) h i _ _ phase
        (by simp only [ne_eq, reduceCtorEq, not_false_eq_true]) (Nat.zero_le _)
  | posts i job v next who phase signals =>
      have hmoved := h.moves i _ (.calling job) phase
        (by simp only [ne_eq, reduceCtorEq, not_false_eq_true]) (Nat.zero_le _)
      exact Roused.post (p := (p.setThread i (.calling job)).setWorker v _) hmoved (.step v next)
        who (signals.setThread i _ _ phase (by simp only [ne_eq, reduceCtorEq, not_false_eq_true])
          (by simp only [ne_eq, reduceCtorEq, not_false_eq_true]))
  | return_ i job phase =>
      exact h.moves i _ _ phase (by simp only [ne_eq, reduceCtorEq, not_false_eq_true])
        (Nat.zero_le _)
  | completeDirect i task phase =>
      exact h.moves i _ _ phase (by simp only [ne_eq, reduceCtorEq, not_false_eq_true])
        (Nat.zero_le _)
  | complete i v task phase free none =>
      exact Roused.moves (p := p.completeOn v task) h i _ _ phase
        (by simp only [ne_eq, reduceCtorEq, not_false_eq_true]) (Nat.zero_le _)
  | beginNext i v task next phase free some =>
      exact Roused.moves (p := p.completeOn v task) h i _ _ phase
        (by simp only [ne_eq, reduceCtorEq, not_false_eq_true]) (Nat.zero_le _)
  | postsNext i v task next who phase signals =>
      have hmoved := h.moves i _ (.destroying (.step v task)) phase
        (by simp only [ne_eq, reduceCtorEq, not_false_eq_true]) (Nat.zero_le _)
      exact Roused.post (p := (p.setThread i (.destroying (.step v task))).setWorker v _) hmoved
        (.step v next) who
        (signals.setThread i _ _ phase (by simp only [ne_eq, reduceCtorEq, not_false_eq_true])
          (by simp only [ne_eq, reduceCtorEq, not_false_eq_true]))
  | destroy i job phase =>
      exact h.moves i _ _ phase (by simp only [ne_eq, reduceCtorEq, not_false_eq_true])
        (Nat.zero_le _)

end Roused

/-- A thread that is awake takes the first job of the queue. -/
structure Takes [DecidableEq W] (p q : Pool W T) : Prop where
  step : Internal p q
  taken : ∃ (i : Nat) (t : Thread W T) (job : Job W T), p.threads[i]? = some t ∧ t.awake = 1 ∧
    p.todo = job :: q.todo ∧ q.threads = p.threads.set i (.calling job)

variable {p : Pool W T}

/-- A thread that does not wait is awake or executes a job. -/
theorem awake_add_executing (t : Thread W T) (h : t ≠ .waiting) :
    t.awake + t.executing = 1 := by
  cases t with
  | waiting => exact absurd rfl h
  | _ => rfl

theorem total_awake_add_executing (threads : List (Thread W T)) (h : .waiting ∉ threads) :
    total Thread.awake threads + total Thread.executing threads = threads.length := by
  induction threads with
  | nil => rfl
  | cons t threads ih =>
      rw [List.mem_cons, not_or] at h
      have ht := awake_add_executing t (Ne.symm h.1)
      have hrest := ih h.2
      rw [total_cons, total_cons, List.length_cons]
      omega

/-- While there is a job and a thread that does not execute one, some thread
    is awake. -/
theorem Roused.exists_awake (h : Roused p) (htodo : p.todo ≠ [])
    (hfree : total Thread.executing p.threads < p.threads.length) :
    ∃ (i : Nat) (t : Thread W T), p.threads[i]? = some t ∧ t.awake = 1 := by
  have hpos : 0 < total Thread.awake p.threads := by
    by_cases hwaiting : Thread.waiting ∈ p.threads
    · have hlength := List.length_pos_iff.mpr htodo
      have hle := h hwaiting
      omega
    · have heq := total_awake_add_executing p.threads hwaiting
      omega
  rcases exists_of_total_pos Thread.awake p.threads hpos with ⟨i, t, hi, ht⟩
  refine ⟨i, t, hi, ?_⟩
  cases t <;> first | rfl | exact absurd ht (Nat.lt_irrefl 0)

variable [DecidableEq W]

/-- A thread that is awake can take the first job. -/
theorem exists_takes (i : Nat) (t : Thread W T) (hi : p.threads[i]? = some t) (ht : t.awake = 1)
    (htodo : p.todo ≠ []) : ∃ q, Takes p q := by
  cases hq : p.todo with
  | nil => exact absurd hq htodo
  | cons job todo =>
      have hlook (active : Nat) : (p.look i active).todo = todo ∧
          (p.look i active).threads = p.threads.set i (.calling job) := by
        unfold Pool.look
        rw [hq]
        exact ⟨rfl, rfl⟩
      have htaken (active : Nat) (hstep : Internal p (p.look i active)) :
          Takes p (p.look i active) :=
        ⟨hstep, i, t, job, hi, ht, by rw [(hlook active).1, hq], (hlook active).2⟩
      cases t with
      | starting => exact ⟨_, htaken _ (.first i hi)⟩
      | released => exact ⟨_, htaken _ (.relook i hi)⟩
      | ready => exact ⟨_, htaken _ (.again i hi)⟩
      | _ => exact absurd ht Nat.zero_ne_one

/-- Taking a job makes one thread more execute one. -/
theorem Takes.executing {q : Pool W T} (h : Takes p q) :
    total Thread.executing q.threads = total Thread.executing p.threads + 1 ∧
      q.threads.length = p.threads.length ∧ p.todo.length = q.todo.length + 1 := by
  rcases h.taken with ⟨i, t, job, hi, ht, htodo, hthreads⟩
  have hset := total_set Thread.executing p.threads i t (.calling job) hi
  have hzero : t.executing = 0 := by
    cases t <;> first | rfl | exact absurd ht Nat.zero_ne_one
  rw [hzero, add_zero] at hset
  refine ⟨?_, ?_, ?_⟩
  · rw [hthreads]
    exact hset
  · rw [hthreads, List.length_set]
  · rw [htodo, List.length_cons]

/-- As many jobs as there are threads without one can all be taken, while none
    of the jobs that are running returns. -/
theorem Roused.takes_all (h : Roused p)
    (hroom : p.todo.length + total Thread.executing p.threads ≤ p.threads.length) :
    ∃ q, Relation.ReflTransGen Takes p q ∧ q.todo = [] ∧
      total Thread.executing q.threads = total Thread.executing p.threads + p.todo.length := by
  induction hn : p.todo.length generalizing p with
  | zero => exact ⟨p, .refl, List.length_eq_zero_iff.mp hn, rfl⟩
  | succ n ih =>
      have htodo : p.todo ≠ [] := by
        intro hnil
        rw [hnil] at hn
        exact absurd hn (Nat.succ_ne_zero n).symm
      rcases h.exists_awake htodo (by omega) with ⟨i, t, hi, ht⟩
      rcases exists_takes i t hi ht htodo with ⟨q, hq⟩
      rcases hq.executing with ⟨hexecuting, hlength, hless⟩
      rcases ih (h.internal hq.step) (by omega) (by omega) with ⟨r, hr, hnil, hcount⟩
      exact ⟨r, .head hq hr, hnil, by omega⟩

theorem roused_reach (n : Nat) (p : Pool W T) (h : Reach n p) :
    Roused p ∧ p.threads.length = n := by
  induction h with
  | start =>
      refine ⟨fun hwaiting => ?_, List.length_replicate⟩
      exact absurd (List.eq_of_mem_replicate hwaiting)
        (by simp only [reduceCtorEq, not_false_eq_true])
  | external p next _ hstep ih => exact ⟨ih.1.external hstep, hstep.length_threads.trans ih.2⟩
  | internal p next _ hstep ih => exact ⟨ih.1.internal hstep, hstep.length_threads.trans ih.2⟩

end Pool

open Pool

/-- What follows for a state of a pool with `n` threads. -/
structure WorkConserving [DecidableEq W] (n : Nat) (p : Pool W T) : Prop where
  roused : .waiting ∈ p.threads → p.todo.length ≤ total Thread.awake p.threads
  /-- Where the threads that do not execute a job all wait, there is no job or
      there are no such threads. -/
  notAsleep : (∀ t ∈ p.threads, t.executing = 0 → t = .waiting) → p.todo ≠ [] →
    ∀ t ∈ p.threads, t.executing = 1
  /-- The jobs queued can all be taken by threads without one, if there are
      enough of them, and no job that is running has to return for it. -/
  takesAll : p.todo.length + total Thread.executing p.threads ≤ n →
    ∃ q, Relation.ReflTransGen Takes p q ∧ q.todo = [] ∧
      total Thread.executing q.threads = total Thread.executing p.threads + p.todo.length

/-- The pool has no lost wake-up and is work conserving. -/
theorem work_conserving [DecidableEq W] (n : Nat) (p : Pool W T) (h : Reach n p) :
    WorkConserving n p := by
  rcases roused_reach n p h with ⟨hroused, hlength⟩
  refine ⟨hroused, fun hasleep htodo t ht => ?_, fun hroom => hroused.takes_all (by omega)⟩
  by_cases hwaiting : .waiting ∈ p.threads
  · -- Some thread waits, so one is awake, and it is none of those.
    have hpos := List.length_pos_iff.mpr htodo
    have hle := hroused hwaiting
    rcases exists_of_total_pos Thread.awake p.threads (by omega) with ⟨i, a, hi, ha⟩
    have hsleep := hasleep a (List.mem_of_getElem? hi)
    cases a with
    | starting => exact absurd (hsleep rfl) (by simp only [reduceCtorEq, not_false_eq_true])
    | released => exact absurd (hsleep rfl) (by simp only [reduceCtorEq, not_false_eq_true])
    | ready => exact absurd (hsleep rfl) (by simp only [reduceCtorEq, not_false_eq_true])
    | _ => exact absurd ha (Nat.lt_irrefl 0)
  · have hne : t ≠ .waiting := fun heq => hwaiting (heq ▸ ht)
    have hone : t.executing = 0 ∨ t.executing = 1 := by
      cases t <;> simp only [Thread.executing, or_true, true_or]
    rcases hone with hzero | hone
    · exact absurd (hasleep t ht hzero) hne
    · exact hone

/-- Both threads wait when a task is scheduled. -/
theorem work_conserving_released : ∃ p : Pool Unit Nat, p.todo = [.direct 5] ∧
    p.threads = [.released, .waiting] ∧ WorkConserving 2 p :=
  ⟨_, rfl, rfl, work_conserving 2 _ (.external _ _ (.internal _ _ (.internal _ _ .start
    (.first 0 rfl)) (.first 1 rfl)) (.direct 5 (some 0) rfl))⟩

end RxCppUniq
