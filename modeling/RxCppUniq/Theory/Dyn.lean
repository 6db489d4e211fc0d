/-!
# Values of any Type

Values that carry a code of their type with them, and are read by giving the
type that is expected: a value is returned exactly for the type it was stored
with. The types are given by codes and what each of them stands for.

## Main definitions

* `Dyn`: A value with the code of its type.
* `Dyn.cast`: The value, if it has the type.
* `Dyn.relabel`: The same value under another code of its type.

## Theorems

* `Dyn.cast_self`, `Dyn.cast_of_ne`: A value is returned exactly for its type.
* `Dyn.cast_relabel`: Where the codes are not confused, a new one changes
  nothing.
-/

namespace RxCppUniq

namespace Theory

/-- A value with the code of its type. -/
structure Dyn {C : Type} (E : C → Type) where
  code : C
  value : E code

namespace Dyn

variable {C D : Type} [DecidableEq C] [DecidableEq D] {E : C → Type} {F : D → Type}

/-- The value, if it has the type with this code. -/
def cast (c : C) (x : Dyn E) : Option (E c) :=
  if h : x.code = c then some (h ▸ x.value) else none

@[simp] theorem cast_self (c : C) (v : E c) : cast c (⟨c, v⟩ : Dyn E) = some v := by
  rw [cast, dif_pos rfl]

theorem cast_of_ne {c : C} {x : Dyn E} (h : x.code ≠ c) : cast c x = none := by
  rw [cast, dif_neg h]

/-- The same value, with another code for its type. -/
def relabel (f : C → D) (x : Dyn fun c => F (f c)) : Dyn F :=
  ⟨f x.code, x.value⟩

/-- It is returned for the new code of its type. -/
theorem cast_relabel {f : C → D} (hf : ∀ c c', f c = f c' → c = c') (c : C)
    (x : Dyn fun c => F (f c)) : cast (f c) (relabel f x) = cast c x := by
  rcases x with ⟨c', v⟩
  by_cases hc : c' = c
  · subst hc
    rw [cast_self, relabel, cast_self]
  · have hno : (⟨c', v⟩ : Dyn fun c => F (f c)).code ≠ c := hc
    rw [cast_of_ne hno, cast_of_ne]
    exact fun heq => hc (hf c' c heq)

omit [DecidableEq C] in
/-- It is not returned for a code that is no new one. -/
theorem cast_relabel_none {f : C → D} {d : D} (hd : ∀ c, f c ≠ d) (x : Dyn fun c => F (f c)) :
    cast d (relabel f x) = none :=
  cast_of_ne (hd x.code)

end Dyn

end Theory

end RxCppUniq
