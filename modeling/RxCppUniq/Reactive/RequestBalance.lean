import Mathlib.Algebra.Group.Int.Defs
import Mathlib.Algebra.Group.Nat.Defs

/-!
# Request Balances

Demand that has been announced and not yet been served. A balance counts
tokens up to `kMax`, the largest `size_t`; at `kMax` it means infinite, and
neither adding to it nor removing from it has an effect any more.

The bound is a field of the structure, so a balance is always a `size_t`.

## Main definitions

* `kMax`: The largest `size_t`.
* `RequestBalance`: A counter with its bound.
* `RequestBalance.add`, `RequestBalance.remove`, `RequestBalance.hasRequests`.
* `RequestBalance.counted`: What one entry of a log does to a balance.

## Theorems

* `RequestBalance.balance_add`: Adding saturates.
* `RequestBalance.remove_of_lt`: Below `kMax` removing is subtraction.
* `RequestBalance.remove_isSome`: Removing one token from a balance that has
  requests never fails.
-/

namespace RxCppUniq

/-- `RequestBalance::kMax`, the largest value of `size_t`. -/
def kMax : Nat := 2 ^ 64 - 1

structure RequestBalance where
  balance : Nat
  le_kMax : balance ≤ kMax
deriving DecidableEq

namespace RequestBalance

@[ext] theorem ext (a b : RequestBalance) (h : a.balance = b.balance) : a = b := by
  cases a
  cases b
  simp only at h
  subst h
  rfl

/-- A balance without tokens, also what `reset` leaves behind. -/
def zero : RequestBalance := ⟨0, Nat.zero_le _⟩

/-- The balance that means infinite. -/
def max : RequestBalance := ⟨kMax, Nat.le_refl _⟩

def hasRequests (b : RequestBalance) : Bool :=
  0 < b.balance

def add (b : RequestBalance) (count : Nat) : RequestBalance :=
  if h : kMax - b.balance < count then max
  else ⟨b.balance + count, by have := b.le_kMax; omega⟩

/-- Remove tokens, or nothing at all from an infinite balance. There is no
    result when the check that the balance does not become negative fails. -/
def remove (b : RequestBalance) (count : Nat) : Option RequestBalance :=
  if b.balance = kMax then some b
  else if count ≤ b.balance then
    some ⟨b.balance - count, by have := b.le_kMax; omega⟩
  else none

@[simp] theorem balance_zero : zero.balance = 0 := rfl

@[simp] theorem balance_max : max.balance = kMax := rfl

@[simp] theorem hasRequests_iff (b : RequestBalance) :
    b.hasRequests = true ↔ 0 < b.balance := by
  simp only [hasRequests, decide_eq_true_eq]

/-- Adding saturates. -/
theorem balance_add (b : RequestBalance) (count : Nat) :
    (b.add count).balance = min kMax (b.balance + count) := by
  have hle := b.le_kMax
  unfold add
  split
  · simp only [balance_max]
    omega
  · simp only []
    omega

theorem balance_add_of_lt (b : RequestBalance) (count : Nat)
    (h : b.balance + count < kMax) : (b.add count).balance = b.balance + count := by
  rw [balance_add]
  omega

/-- Below `kMax` removing is subtraction. -/
theorem remove_of_lt (b b' : RequestBalance) (count : Nat) (hlt : b.balance < kMax)
    (h : b.remove count = some b') : b.balance = b'.balance + count := by
  unfold remove at h
  rw [if_neg (by omega)] at h
  by_cases hle : count ≤ b.balance
  · rw [if_pos hle, Option.some.injEq] at h
    rw [← h]
    simp only []
    omega
  · rw [if_neg hle] at h
    exact absurd h (by simp only [reduceCtorEq, not_false_eq_true])

/-- An infinite balance stays infinite. -/
theorem remove_kMax (b : RequestBalance) (count : Nat) (h : b.balance = kMax) :
    b.remove count = some b := by
  unfold remove
  rw [if_pos h]

/-- Removing fails only when it would make the balance negative. -/
theorem remove_eq_none (b : RequestBalance) (count : Nat) :
    b.remove count = none ↔ b.balance ≠ kMax ∧ b.balance < count := by
  unfold remove
  by_cases hmax : b.balance = kMax
  · simp only [hmax, if_true, reduceCtorEq, ne_eq, not_true_eq_false, false_and]
  · by_cases hle : count ≤ b.balance
    · simp only [hmax, if_false, hle, if_true, reduceCtorEq, ne_eq, not_false_eq_true, true_and,
        false_iff]
      omega
    · simp only [hmax, if_false, hle, ne_eq, not_false_eq_true, true_and, true_iff]
      omega

/-- Removing one token from a balance that has requests never fails. -/
theorem remove_isSome (b : RequestBalance) (h : 0 < b.balance) :
    ∃ b', b.remove 1 = some b' := by
  cases hb : b.remove 1 with
  | some b' => exact ⟨b', rfl⟩
  | none =>
      have hlt := ((remove_eq_none b 1).mp hb).2
      omega

/-- Nothing is added. -/
@[simp] theorem add_zero (b : RequestBalance) : b.add 0 = b := by
  ext
  have hle := b.le_kMax
  rw [balance_add]
  omega

/-- Nothing is removed. -/
@[simp] theorem remove_zero (b : RequestBalance) : b.remove 0 = some b := by
  unfold remove
  by_cases hmax : b.balance = kMax
  · rw [if_pos hmax]
  · rw [if_neg hmax, if_pos (Nat.zero_le _)]
    rfl

/-- What one entry of a log does to a balance: tokens are added, and others
    are removed as far as there are any. -/
def counted (b : RequestBalance) (added removed : Nat) : RequestBalance :=
  ((b.add added).remove removed).getD (b.add added)

@[simp] theorem counted_add (b : RequestBalance) (added : Nat) :
    b.counted added 0 = b.add added := by
  rw [counted, remove_zero, Option.getD_some]

/-- The tokens that are removed are there. -/
theorem counted_remove (b b' : RequestBalance) (removed : Nat)
    (h : b.remove removed = some b') : b.counted 0 removed = b' := by
  rw [counted, add_zero, h, Option.getD_some]

/-- What removing leaves behind is never more than there was. -/
theorem balance_remove_le (b b' : RequestBalance) (count : Nat)
    (h : b.remove count = some b') : b'.balance ≤ b.balance := by
  by_cases hmax : b.balance = kMax
  · rw [remove_kMax b count hmax, Option.some.injEq] at h
    exact Nat.le_of_eq (congrArg balance h.symm)
  · have hle := b.le_kMax
    have heq := remove_of_lt b b' count (by omega) h
    omega

end RequestBalance

end RxCppUniq
