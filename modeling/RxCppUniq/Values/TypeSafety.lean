import RxCppUniq.Reactive.PolyValue

/-!
# Type Safety of Polymorphic Values

A packed value is given back for the type it was packed with. For another type
there is a status, which says that this is not the type of the value.

What the value is held as decides. A value that can only be moved is held as a
`shared_ptr`, as is a `shared_ptr` that is packed itself, and the two are not
told apart. A blob is held as a `shared_ptr` too, and is not given back but
parsed as a value of the type that is asked for.

## Main definitions

* `PolyValue.heldAs`: The type of the value that is held.
* `PolyValue.Blob`: The types that are taken for a blob.
* `PolyValue.TypeSafe`: What the type of a value decides.

## Theorems

* `PolyValue.heldAs_eq_iff`: Which types are held as the same.
* `PolyValue.type_safe`: Types that are told apart are safe.
* `PolyValue.unpack_serialized`: A value that is sent over the network.
* `PolyValue.unpack_shared`, `PolyValue.unpack_pointee`: Types that are not
  told apart.
-/

namespace RxCppUniq

open Theory ValueType

variable {P : Types}

section Casts

@[simp] theorem plain_toAny (held : ValueType P) (x : Stored P) :
    AnyValue.plain held x.toAny = x.cast held :=
  Dyn.cast_relabel (F := AnyType.Value) (fun _ _ heq => AnyType.plain.inj heq) held x

@[simp] theorem wrapper_toAny (x : Stored P) : AnyValue.wrapper x.toAny = none :=
  Dyn.cast_relabel_none (F := AnyType.Value) (f := AnyType.plain) (d := .valueWithSerializer)
    (fun _ => by simp only [ne_eq, reduceCtorEq, not_false_eq_true]) x

@[simp] theorem plain_wrapped (held : ValueType P) (w : ValueWithSerializer P) :
    AnyValue.plain held ⟨.valueWithSerializer, w⟩ = none :=
  Dyn.cast_of_ne (by simp only [ne_eq, reduceCtorEq, not_false_eq_true])

@[simp] theorem wrapper_wrapped (w : ValueWithSerializer P) :
    AnyValue.wrapper ⟨.valueWithSerializer, w⟩ = some w :=
  Dyn.cast_self _ _

/-- A value that is held by a pointer. -/
theorem cast_some (t : ValueType P) (v : t.Value) :
    Dyn.cast (.sharedPtr t) (⟨.sharedPtr t, some v⟩ : Stored P) = some (some v) :=
  Dyn.cast_self _ _

end Casts

namespace PolyValue

variable (specializations : Specializations P)

/-- The type as which a value is held. -/
def heldAs (t : ValueType P) : ValueType P :=
  if t.copyable then t else .sharedPtr t

/-- The types whose values are taken for a blob. With a serializer they are
    wrapped, and are not. -/
def Blob (t : ValueType P) : Prop :=
  (traits specializations t).available = false ∧
    (t = .serializedValue ∨ t = .sharedPtr .serializedValue)

/-- The status for a type that is not the one of the value. -/
def wrongType : Status :=
  rxStatus .invalidArgument "poly_value.h:238" "value has not the requested type"

/-- Two types are held as the same where one is a pointer to the other, and the
    other can only be moved. -/
theorem heldAs_eq_iff (t t' : ValueType P) :
    heldAs t = heldAs t' ↔ t' = t ∨ (t.copyable = false ∧ t' = .sharedPtr t) ∨
      (t'.copyable = false ∧ t = .sharedPtr t') := by
  have hshared : ∀ u : ValueType P, (ValueType.sharedPtr u).copyable = true := fun _ => rfl
  unfold heldAs
  -- four cases: each type is held as itself or as a pointer to itself
  by_cases ht : t.copyable = true
  · by_cases ht' : t'.copyable = true
    · rw [if_pos ht, if_pos ht', ht, ht']
      simp only [Bool.true_eq_false, false_and, or_false]
      exact eq_comm
    · rw [Bool.not_eq_true] at ht'
      rw [if_pos ht, ht', if_neg Bool.false_ne_true, ht]
      constructor
      · exact fun heq => Or.inr (Or.inr ⟨rfl, heq⟩)
      · rintro (heq | ⟨hno, -⟩ | ⟨-, heq⟩)
        · rw [heq, ht] at ht'
          cases ht'
        · cases hno
        · exact heq
  · rw [Bool.not_eq_true] at ht
    by_cases ht' : t'.copyable = true
    · rw [if_pos ht', ht, if_neg Bool.false_ne_true, ht']
      constructor
      · exact fun heq => Or.inr (Or.inl ⟨rfl, heq.symm⟩)
      · rintro (heq | ⟨-, heq⟩ | ⟨hno, -⟩)
        · rw [heq, ht] at ht'
          cases ht'
        · exact heq.symm
        · cases hno
    · rw [Bool.not_eq_true] at ht'
      rw [ht, ht', if_neg Bool.false_ne_true, if_neg Bool.false_ne_true]
      constructor
      · exact fun heq => Or.inl (ValueType.sharedPtr.inj heq).symm
      · rintro (heq | ⟨-, heq⟩ | ⟨-, heq⟩)
        · rw [heq]
        · rw [heq, hshared] at ht'
          cases ht'
        · rw [heq, hshared] at ht
          cases ht

/-- The value is read as the type it is held as, unless it is taken for a
    blob. -/
theorem unpackFrom_attach (available : Bool) (held : ValueType P)
    (ser : held.Value → Result SerializedValue) (value : held.Value) (t held' : ValueType P)
    (move : held'.Value → Result t.Value)
    (h : ¬(available = false ∧ held = .sharedPtr .serializedValue)) :
    unpackFrom specializations t held' move (attach available held ser value) =
      match Dyn.cast held' (⟨held, value⟩ : Stored P) with
      | none => .ok (.status wrongType invalidArgument_ne_ok)
      | some value => move value := by
  cases available with
  | true =>
      simp only [unpackFrom, attach, if_true, moveImpl, plain_wrapped, unwrap, wrapper_wrapped,
        checkType, plain_toAny]
      cases Dyn.cast held' (⟨held, value⟩ : Stored P) with
      | none => rfl
      | some v => rfl
  | false =>
      have hne : held ≠ .sharedPtr .serializedValue := fun heq => h ⟨rfl, heq⟩
      have hnone : Dyn.cast (.sharedPtr .serializedValue) (⟨held, value⟩ : Stored P) = none :=
        Dyn.cast_of_ne hne
      simp only [unpackFrom, attach, Bool.false_eq_true, if_false, moveImpl, plain_toAny, hnone,
        unwrap, wrapper_toAny, checkType]
      cases Dyn.cast held' (⟨held, value⟩ : Stored P) with
      | none => rfl
      | some v => rfl

/-- A blob is parsed. -/
theorem unpackFrom_blob (ser : Option SerializedValue → Result SerializedValue)
    (blob : SerializedValue) (t held : ValueType P) (move : held.Value → Result t.Value) :
    unpackFrom specializations t held move
        (attach false (.sharedPtr .serializedValue) ser (some blob)) =
      (traits specializations t).parse blob := by
  have hcast := cast_some (P := P) (.serializedValue) blob
  simp only [unpackFrom, attach, Bool.false_eq_true, if_false, moveImpl, plain_toAny, hcast]

/-- What `Pack` makes. -/
theorem pack_eq_attach (t : ValueType P) (v : t.Value) :
    ∃ ser value, pack specializations t v =
      attach (traits specializations t).available (heldAs t) ser value := by
  unfold heldAs pack
  by_cases ht : t.copyable = true
  · rw [if_pos ht, if_pos ht]
    exact ⟨_, _, rfl⟩
  · rw [if_neg ht, if_neg ht]
    exact ⟨_, _, rfl⟩

/-- What `Unpack` does. -/
theorem unpack_eq_unpackFrom (t : ValueType P) :
    ∃ move, ∀ p, unpack specializations t p =
      unpackFrom specializations t (heldAs t) move p := by
  unfold heldAs unpack
  by_cases ht : t.copyable = true
  · rw [if_pos ht]
    exact ⟨fun value => .ok (.value value), fun p => if_pos ht⟩
  · rw [if_neg ht]
    exact ⟨_, fun p => if_neg ht⟩

variable {specializations} in
/-- What is not taken for a blob is not held as one. -/
theorem held_of_not_blob {t : ValueType P} (h : ¬Blob specializations t) :
    ¬((traits specializations t).available = false ∧
      heldAs t = .sharedPtr .serializedValue) := by
  rintro ⟨havailable, heq⟩
  refine h ⟨havailable, ?_⟩
  unfold heldAs at heq
  by_cases ht : t.copyable = true
  · rw [if_pos ht] at heq
    exact Or.inr heq
  · rw [if_neg ht] at heq
    exact Or.inl (ValueType.sharedPtr.inj heq)

theorem heldAs_of_copyable {t : ValueType P} (h : t.copyable = true) : heldAs t = t :=
  if_pos h

theorem heldAs_of_not_copyable {t : ValueType P} (h : t.copyable = false) :
    heldAs t = .sharedPtr t :=
  if_neg (by rw [h]; exact Bool.false_ne_true)

/-- A value is given back for its own type. -/
theorem unpack_pack (t : ValueType P) (v : t.Value) (h : ¬Blob specializations t) :
    unpack specializations t (pack specializations t v) = .ok (.value v) := by
  have hheld := held_of_not_blob h
  unfold unpack pack
  by_cases ht : t.copyable = true
  · rw [heldAs_of_copyable ht] at hheld
    rw [if_pos ht, if_pos ht, unpackCopyable, packCopyable, unpackFrom_attach _ _ _ _ _ _ _ _ hheld,
      Dyn.cast_self]
  · rw [Bool.not_eq_true] at ht
    rw [heldAs_of_not_copyable ht] at hheld
    rw [ht, if_neg Bool.false_ne_true, if_neg Bool.false_ne_true, unpackNotCopyable,
      packNotCopyable]
    refine (unpackFrom_attach _ _ _ _ _ _ _ _ hheld).trans ?_
    rw [cast_some]

/-- For a type that is held as another one there is a status. -/
theorem unpack_of_ne (t t' : ValueType P) (v : t.Value) (h : ¬Blob specializations t)
    (hne : heldAs t ≠ heldAs t') :
    unpack specializations t' (pack specializations t v) =
      .ok (.status wrongType invalidArgument_ne_ok) := by
  rcases pack_eq_attach specializations t v with ⟨ser, value, hpack⟩
  rcases unpack_eq_unpackFrom specializations t' with ⟨move, hunpack⟩
  have hnone : Dyn.cast (heldAs t') (⟨heldAs t, value⟩ : Stored P) = none := Dyn.cast_of_ne hne
  rw [hpack, hunpack, unpackFrom_attach _ _ _ _ _ _ _ _ (held_of_not_blob h), hnone]

/-- Values that can only be moved are not told apart from pointers to them,
    which they are held as. -/
theorem unpack_shared (t : ValueType P) (v : t.Value) (ht : t.copyable = false)
    (h : ¬Blob specializations t) :
    unpack specializations (.sharedPtr t) (pack specializations t v) = .ok (.value (some v)) := by
  have hheld := held_of_not_blob h
  rw [heldAs_of_not_copyable ht] at hheld
  have hcopyable : (ValueType.sharedPtr t).copyable = true := rfl
  rw [unpack, if_pos hcopyable, pack, ht, if_neg Bool.false_ne_true, unpackCopyable,
    packNotCopyable]
  refine (unpackFrom_attach _ _ _ _ _ _ _ _ hheld).trans ?_
  rw [cast_some]

/-- And what such a pointer points to is moved out of it. -/
theorem unpack_pointee (t : ValueType P) (v : t.Value) (ht : t.copyable = false)
    (h : ¬Blob specializations (.sharedPtr t)) :
    unpack specializations t (pack specializations (.sharedPtr t) (some v)) = .ok (.value v) := by
  have hcopyable : (ValueType.sharedPtr t).copyable = true := rfl
  have hheld := held_of_not_blob h
  rw [heldAs_of_copyable hcopyable] at hheld
  have hpack : pack specializations (.sharedPtr t) (some v) =
      packCopyable specializations (.sharedPtr t) (some v) := if_pos hcopyable
  rw [hpack, unpack, ht, if_neg Bool.false_ne_true, unpackNotCopyable]
  refine (unpackFrom_attach _ _ _ _ _ _ _ _ hheld).trans ?_
  rw [cast_some]

/-- A blob is parsed as a value of the type that is asked for. -/
theorem unpack_blob (t : ValueType P) (blob : SerializedValue)
    (h : (traits specializations (.serializedValue)).available = false) :
    unpack specializations t (pack specializations .serializedValue blob) =
      (traits specializations t).parse blob := by
  rcases unpack_eq_unpackFrom specializations t with ⟨move, hunpack⟩
  have hpack : pack specializations .serializedValue blob =
      packNotCopyable specializations .serializedValue blob := if_neg Bool.false_ne_true
  rw [hpack, hunpack]
  change unpackFrom specializations t (heldAs t) move
    (attach (traits specializations .serializedValue).available (.sharedPtr .serializedValue) _
      (some blob)) = _
  rw [h]
  exact unpackFrom_blob _ _ _ _ _ _

/-- What is wrapped is serialized by the traits of its type. -/
theorem serialize_attach (held : ValueType P) (ser : held.Value → Result SerializedValue)
    (value : held.Value) : serialize (attach true held ser value) = ser value := by
  simp only [serialize, attach, if_true, moveImpl, wrapper_wrapped, Dyn.cast_self]

theorem serialize_pack (t : ValueType P) (v : t.Value)
    (h : (traits specializations t).available = true) :
    serialize (pack specializations t v) = (traits specializations t).serialize v := by
  unfold pack
  by_cases ht : t.copyable = true
  · rw [if_pos ht, packCopyable, h, serialize_attach]
  · rw [if_neg ht, packNotCopyable, h]
    exact serialize_attach _ _ _

/-- A value that is serialized and packed again, as a blob, is given back
    where the traits of its type parse what they have written. -/
theorem unpack_serialized (t : ValueType P) (v : t.Value) (blob : SerializedValue)
    (havailable : (traits specializations t).available = true)
    (hnone : (traits specializations (.serializedValue)).available = false)
    (hparse : ∀ b, (traits specializations t).serialize v = .ok (.value b) →
      (traits specializations t).parse b = .ok (.value v))
    (hblob : serialize (pack specializations t v) = .ok (.value blob)) :
    unpack specializations t (pack specializations .serializedValue blob) = .ok (.value v) := by
  rw [serialize_pack _ _ _ havailable] at hblob
  rw [unpack_blob _ _ _ hnone]
  exact hparse blob hblob

/-- What the types of a value decide. -/
structure TypeSafe (t t' : ValueType P) (v : t.Value) (blob : SerializedValue) : Prop where
  same : ¬Blob specializations t →
    unpack specializations t (pack specializations t v) = .ok (.value v)
  other : ¬Blob specializations t → t' ≠ t → ¬(t.copyable = false ∧ t' = .sharedPtr t) →
    ¬(t'.copyable = false ∧ t = .sharedPtr t') →
    unpack specializations t' (pack specializations t v) =
      .ok (.status wrongType invalidArgument_ne_ok)
  parsed : (traits specializations (.serializedValue)).available = false →
    unpack specializations t' (pack specializations .serializedValue blob) =
      (traits specializations t').parse blob

/-- A value is given back for its type, and for another one there is a status
    unless one of the two is a pointer to the other. What is packed as a blob
    is parsed. -/
theorem type_safe (t t' : ValueType P) (v : t.Value) (blob : SerializedValue) :
    TypeSafe specializations t t' v blob where
  same := unpack_pack specializations t v
  other h hne hshared hpointee := by
    refine unpack_of_ne specializations t t' v h fun heq => ?_
    rcases (heldAs_eq_iff t t').mp heq with heq | heq | heq
    · exact hne heq
    · exact hshared heq
    · exact hpointee heq
  parsed := unpack_blob specializations t' blob

/-- A program without classes, messages and specializations. -/
def plainTypes : Types where
  Class := Empty
  Message := Empty
  classEq := inferInstance
  messageEq := inferInstance
  Object _ := Unit
  copyable _ := true
  Content _ := Unit
  serializeToArray _ _ := none
  parseFromArray _ _ := none

/-- A blob is not given back for its own type. There is a status instead. -/
theorem blob_not_returned :
    unpack (P := plainTypes) (fun _ => none) .serializedValue
        (pack (fun _ => none) .serializedValue (some [1, 2])) =
      .ok (.status (rxStatus .unavailable "poly_value.h:56"
        "serialization not available for this type") unavailable_ne_ok) :=
  unpack_blob (P := plainTypes) (fun _ => none) .serializedValue (some [1, 2]) rfl

/-- A `unique_ptr` to a blob is packed, and a `shared_ptr` to the `unique_ptr` is
    given back. -/
example : unpack (P := plainTypes) (fun _ => none) (.sharedPtr (.uniquePtr .serializedValue))
    (pack (fun _ => none) (.uniquePtr .serializedValue) (some (some [7]))) =
    .ok (.value (some (some (some [7])))) :=
  rfl

end PolyValue

end RxCppUniq
