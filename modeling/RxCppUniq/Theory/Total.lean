import Mathlib.Algebra.BigOperators.Group.List.Basic

/-!
# Totals over a List

The sum of the weights of the entries of a list, where one entry is replaced
at a time. Numbers of threads in some phase are totals, and so are multisets
of what the threads have in hand.

## Main definitions

* `total`: The sum of the weights.

## Theorems

* `total_set`: What replacing one entry does.
* `le_total`, `total_le_of_unique`, `total_le_length`: Bounds for totals of numbers.
-/

namespace RxCppUniq

namespace Theory

variable {A M : Type} [AddCommMonoid M]

/-- The sum of the weights of the entries. -/
def total (f : A → M) (l : List A) : M :=
  (l.map f).sum

@[simp] theorem total_nil (f : A → M) : total f [] = 0 := rfl

@[simp] theorem total_cons (f : A → M) (a : A) (l : List A) :
    total f (a :: l) = f a + total f l := by
  rw [total, List.map_cons, List.sum_cons, total]

@[simp] theorem total_append (f : A → M) (l l' : List A) :
    total f (l ++ l') = total f l + total f l' := by
  rw [total, List.map_append, List.sum_append, total, total]

/-- The total of entries without weight. -/
theorem total_eq_zero (f : A → M) (l : List A) (h : ∀ a ∈ l, f a = 0) : total f l = 0 := by
  induction l with
  | nil => rfl
  | cons a l ih =>
      rw [total_cons, h a List.mem_cons_self, zero_add]
      exact ih fun b hb => h b (List.mem_cons_of_mem a hb)

/-- The total of entries that are all the same. -/
theorem total_replicate (f : A → M) (n : Nat) (a : A) :
    total f (List.replicate n a) = n • f a := by
  rw [total, List.map_replicate, List.sum_replicate]

/-- One entry is replaced by another. -/
theorem total_set (f : A → M) (l : List A) (i : Nat) (a b : A) (h : l[i]? = some a) :
    total f (l.set i b) + f a = total f l + f b := by
  induction l generalizing i with
  | nil => exact absurd h (by simp only [List.getElem?_nil, reduceCtorEq, not_false_eq_true])
  | cons x l ih =>
      cases i with
      | zero =>
          rw [List.getElem?_cons_zero, Option.some.injEq] at h
          rw [List.set_cons_zero, total_cons, total_cons, h, add_assoc, add_comm (f b),
            add_comm _ (f a)]
      | succ i =>
          rw [List.getElem?_cons_succ] at h
          rw [List.set_cons_succ, total_cons, total_cons, add_assoc, ih i h, add_assoc]

/-- A weight is at most the total. -/
theorem le_total (f : A → Nat) (l : List A) (i : Nat) (a : A) (h : l[i]? = some a) :
    f a ≤ total f l := by
  induction l generalizing i with
  | nil => exact absurd h (by simp only [List.getElem?_nil, reduceCtorEq, not_false_eq_true])
  | cons x l ih =>
      rw [total_cons]
      cases i with
      | zero =>
          rw [List.getElem?_cons_zero, Option.some.injEq] at h
          rw [h]
          exact Nat.le_add_right _ _
      | succ i =>
          rw [List.getElem?_cons_succ] at h
          exact Nat.le_trans (ih i h) (Nat.le_add_left _ _)

/-- Where only one entry can have weight, the total is its weight at most. -/
theorem total_le_of_unique (f : A → Nat) (l : List A) (hnodup : l.Nodup) (b : A)
    (hzero : ∀ a, a ≠ b → f a = 0) : total f l ≤ f b := by
  induction l with
  | nil => exact Nat.zero_le _
  | cons x l ih =>
      rw [List.nodup_cons] at hnodup
      rw [total_cons]
      by_cases hx : x = b
      · have hrest : total f l = 0 := by
          refine total_eq_zero f l fun a ha => hzero a fun heq => ?_
          rw [hx, ← heq] at hnodup
          exact hnodup.1 ha
        exact Nat.le_of_eq (by rw [hrest, hx, add_zero])
      · rw [hzero x hx, zero_add]
        exact ih hnodup.2

/-- A total that is not zero has an entry with weight. -/
theorem exists_of_total_pos (f : A → Nat) (l : List A) (h : 0 < total f l) :
    ∃ (i : Nat) (a : A), l[i]? = some a ∧ 0 < f a := by
  induction l with
  | nil => exact absurd h (Nat.lt_irrefl 0)
  | cons x l ih =>
      by_cases hx : 0 < f x
      · exact ⟨0, x, List.getElem?_cons_zero, hx⟩
      · rw [total_cons, Nat.le_zero.mp (Nat.le_of_not_lt hx), zero_add] at h
        rcases ih h with ⟨i, a, hi, ha⟩
        exact ⟨i + 1, a, by rw [List.getElem?_cons_succ, hi], ha⟩

/-- Where no weight is above one, the total is at most the length. -/
theorem total_le_length (f : A → Nat) (l : List A) (h : ∀ a, f a ≤ 1) :
    total f l ≤ l.length := by
  induction l with
  | nil => exact Nat.le_refl 0
  | cons x l ih =>
      rw [total_cons, List.length_cons, Nat.add_comm]
      exact Nat.add_le_add ih (h x)

end Theory

end RxCppUniq
