import RxCppUniq.Base.Status
import RxCppUniq.Theory.Dyn

/-!
# Polymorphic Values

`PolyValue` holds a value of a type that is not known any more, in an
`absl::any`, and gives it back to who asks for it with the type. The value may
be packed together with a function that serializes it, in case it has to be
sent over the network, and a value that came from there is a blob that is
parsed when it is unpacked.

An `absl::any` holds copyable values only. A value that can only be moved is
held by a `shared_ptr` instead, and so is a blob.

The classes of a program and its messages are parameters, and so are its
specializations of `SerializationTraits`, of which the header has those for the
two message pointers. A pointer is what it points to, or nothing; which
address that has is left out.

## Main definitions

* `Types`: The classes of a program.
* `ValueType`, `Value`: The types, and the values of each.
* `SerializationTraits`: How values of a type are serialized.
* `PolyValue.pack`, `PolyValue.unpack`, `PolyValue.serialize`: The methods.
-/

namespace RxCppUniq

open Theory

/-- What a program has in addition to the types that are known here: its
    classes and the messages of its protocols, with the functions that are
    generated for them. -/
structure Types where
  Class : Type
  Message : Type
  classEq : DecidableEq Class
  messageEq : DecidableEq Message
  Object : Class → Type
  /-- `std::is_copy_constructible`. -/
  copyable : Class → Bool
  Content : Message → Type
  /-- `SerializeToArray`, into an array of the size that is needed. -/
  serializeToArray : (m : Message) → Content m → Option (List UInt8)
  parseFromArray : (m : Message) → List UInt8 → Option (Content m)

attribute [instance] Types.classEq Types.messageEq

/-- The types of the values that can be packed. -/
inductive ValueType (P : Types) where
  | object (c : P.Class)
  | serializedValue
  | sharedPtr (t : ValueType P)
  | uniquePtr (t : ValueType P)
  | sharedMsg (m : P.Message)
  | uniqueMsg (m : P.Message)
deriving DecidableEq

/-- A blob: the bytes, unless the pointer to them was moved away. -/
abbrev SerializedValue := Option (List UInt8)

/-- A function that may fail a check, or do what has no meaning, before it
    returns a value or a status. -/
abbrev Result (A : Type) := Except String (StatusOr A)

theorem unavailable_ne_ok : StatusCode.unavailable ≠ .ok := by
  decide

theorem internal_ne_ok : StatusCode.internal ≠ .ok := by
  decide

theorem invalidArgument_ne_ok : StatusCode.invalidArgument ≠ .ok := by
  decide

/-- The fault that stands for undefined behaviour: what a null pointer points to
    is read. -/
def nullDereference : String := "null pointer dereferenced"

namespace ValueType

variable {P : Types}

/-- The values of a type. -/
def Value : ValueType P → Type
  | object c => P.Object c
  | serializedValue => SerializedValue
  | sharedPtr t => Option t.Value
  | uniquePtr t => Option t.Value
  | sharedMsg m => Option (P.Content m)
  | uniqueMsg m => Option (P.Content m)

/-- `std::is_copy_constructible`. The others can only be moved. -/
def copyable : ValueType P → Bool
  | object c => P.copyable c
  | serializedValue => false
  | sharedPtr _ => true
  | uniquePtr _ => false
  | sharedMsg _ => true
  | uniqueMsg _ => false

end ValueType

open ValueType

/-- `SerializationTraits<T>`. -/
structure SerializationTraits {P : Types} (t : ValueType P) where
  available : Bool
  serialize : t.Value → Result SerializedValue
  parse : SerializedValue → Result t.Value

namespace SerializationTraits

variable {P : Types}

/-- The status of the functions of a type for which there is no
    specialization. -/
def notAvailable {A : Type} (place : String) : StatusOr A :=
  .status (rxStatus .unavailable place "serialization not available for this type")
    unavailable_ne_ok

/-- The traits of such a type. -/
def primary (t : ValueType P) : SerializationTraits t where
  available := false
  serialize _ := .ok (notAvailable "poly_value.h:51")
  parse _ := .ok (notAvailable "poly_value.h:56")

/-- `Serialize` of a pointer to a message. Without the message its check fails
    with `missing`. -/
def serializeMessage (m : P.Message) (missing place : String) :
    Option (P.Content m) → Result SerializedValue
  | none => .error missing
  | some msg => match P.serializeToArray m msg with
    | none => .ok (.status (rxStatus .internal place "serialization failed") internal_ne_ok)
    | some bytes => .ok (.value (some bytes))

/-- `Parse` of a pointer to a message. -/
def parseMessage (m : P.Message) (place : String) : SerializedValue → Result (Option (P.Content m))
  | none => .error nullDereference
  | some bytes => match P.parseFromArray m bytes with
    | none => .ok (.status (rxStatus .internal place "deserialization failed") internal_ne_ok)
    | some msg => .ok (.value (some msg))

/-- The traits of `SharedMsg`. -/
def sharedMsg (m : P.Message) : SerializationTraits (ValueType.sharedMsg m) where
  available := true
  serialize := serializeMessage m "implementation missing" "poly_value.h:264"
  parse := parseMessage m "poly_value.h:274"

/-- The traits of `UniqueMsg`. -/
def uniqueMsg (m : P.Message) : SerializationTraits (ValueType.uniqueMsg m) where
  available := true
  serialize := serializeMessage m "implementation missing (maybe moved)" "poly_value.h:290"
  parse := parseMessage m "poly_value.h:300"

/-- The traits of the header. -/
def header : (t : ValueType P) → SerializationTraits t
  | .sharedMsg m => sharedMsg m
  | .uniqueMsg m => uniqueMsg m
  | .object c => primary (.object c)
  | .serializedValue => primary .serializedValue
  | .sharedPtr t => primary (.sharedPtr t)
  | .uniquePtr t => primary (.uniquePtr t)

end SerializationTraits

/-- The specializations of `SerializationTraits` in a program. -/
abbrev Specializations (P : Types) := (t : ValueType P) → Option (SerializationTraits t)

/-- `SerializationTraits<T>` where the program has specializations. -/
def traits {P : Types} (specializations : Specializations P) (t : ValueType P) :
    SerializationTraits t :=
  (specializations t).getD (SerializationTraits.header t)

/-- A value in an `absl::any` that is not wrapped. -/
abbrev Stored (P : Types) := Dyn (Value (P := P))

/-- A value together with a serializer. What is wrapped is never wrapped
    itself. -/
structure ValueWithSerializer (P : Types) where
  value : Stored P
  serializer : Stored P → Result SerializedValue

/-- The types that an `absl::any` in a `PolyValue` may hold. -/
inductive AnyType (P : Types) where
  | plain (t : ValueType P)
  | valueWithSerializer
deriving DecidableEq

def AnyType.Value {P : Types} : AnyType P → Type
  | plain t => t.Value
  | valueWithSerializer => ValueWithSerializer P

/-- `absl::any`. -/
abbrev AnyValue (P : Types) := Dyn (AnyType.Value (P := P))

/-- The same value in an `absl::any` of its own. -/
def Stored.toAny {P : Types} (x : Stored P) : AnyValue P :=
  Dyn.relabel AnyType.plain x

/-- `absl::any_cast` to a type that can be packed. -/
def AnyValue.plain {P : Types} (held : ValueType P) (x : AnyValue P) : Option held.Value :=
  Dyn.cast (AnyType.plain held) x

/-- `absl::any_cast` to the wrapper. -/
def AnyValue.wrapper {P : Types} (x : AnyValue P) : Option (ValueWithSerializer P) :=
  Dyn.cast AnyType.valueWithSerializer x

/-- `PolyValue`, a pointer which may have been moved away. -/
structure PolyValue (P : Types) where
  impl : Option (AnyValue P)

namespace PolyValue

variable {P : Types} (specializations : Specializations P)

/-- Attach a serializer if available. The value may be held as one of another
    type, and `serialize` takes it from there. -/
def attach (available : Bool) (held : ValueType P) (serialize : held.Value → Result SerializedValue)
    (value : held.Value) : PolyValue P :=
  if available then
    ⟨some ⟨.valueWithSerializer,
      { value := ⟨held, value⟩
        serializer := fun packedValue => match packedValue.cast held with
          | none => .ok (.status (rxStatus .internal "poly_value.h:130"
              "value has not the expected type") internal_ne_ok)
          | some value => serialize value }⟩⟩
  else ⟨some (Stored.toAny ⟨held, value⟩)⟩

/-- `Pack` of a copyable value. -/
def packCopyable (t : ValueType P) (value : t.Value) : PolyValue P :=
  attach (traits specializations t).available t (traits specializations t).serialize value

/-- `Pack` of a value that can only be moved, which is held by a
    `shared_ptr`. -/
def packNotCopyable (t : ValueType P) (value : t.Value) : PolyValue P :=
  attach (traits specializations t).available (.sharedPtr t)
    (fun
      | none => .error nullDereference
      | some value => (traits specializations t).serialize value)
    (some value)

/-- `Pack`. -/
def pack (t : ValueType P) (value : t.Value) : PolyValue P :=
  if t.copyable then packCopyable specializations t value
  else packNotCopyable specializations t value

/-- `move_impl`. -/
def moveImpl (p : PolyValue P) : Except String (AnyValue P) :=
  match p.impl with
  | none => .error "implementation missing (maybe moved)"
  | some packedValue => .ok packedValue

/-- `CheckType`, and the value that has passed it. -/
def checkType (held : ValueType P) (packedValue : AnyValue P) : StatusOr held.Value :=
  match AnyValue.plain held packedValue with
  | none => .status (rxStatus .invalidArgument "poly_value.h:238"
      "value has not the requested type") invalidArgument_ne_ok
  | some value => .value value

/-- Remove the serializer wrapper. -/
def unwrap (packedValue : AnyValue P) : AnyValue P :=
  match AnyValue.wrapper packedValue with
  | none => packedValue
  | some wrapper => wrapper.value.toAny

/-- `Unpack` of a value of type `t` that is held as one of type `held`, from
    which `move` takes it. -/
def unpackFrom (t held : ValueType P) (move : held.Value → Result t.Value) (p : PolyValue P) :
    Result t.Value :=
  match p.moveImpl with
  | .error e => .error e
  | .ok packedValue => match AnyValue.plain (.sharedPtr .serializedValue) packedValue with
    -- The value is serialized, and is created from its serialized representation.
    | some none => .error nullDereference
    | some (some blob) => (traits specializations t).parse blob
    | none => match checkType held (unwrap packedValue) with
      | .status s h => .ok (.status s h)
      | .value value => move value

/-- `Unpack` of a copyable value. -/
def unpackCopyable (t : ValueType P) : PolyValue P → Result t.Value :=
  unpackFrom specializations t t fun value => .ok (.value value)

/-- `Unpack` of a value that can only be moved, out of the `shared_ptr` that
    holds it. -/
def unpackNotCopyable (t : ValueType P) : PolyValue P → Result t.Value :=
  unpackFrom specializations t (.sharedPtr t) fun
    | none => .error nullDereference
    | some value => .ok (.value value)

/-- `Unpack`. -/
def unpack (t : ValueType P) (p : PolyValue P) : Result t.Value :=
  if t.copyable then unpackCopyable specializations t p
  else unpackNotCopyable specializations t p

/-- `Serialize`. -/
def serialize (p : PolyValue P) : Result SerializedValue :=
  match p.moveImpl with
  | .error e => .error e
  | .ok packedValue => match AnyValue.wrapper packedValue with
    | none => .ok (.status (rxStatus .invalidArgument "poly_value.cc:24"
        "value is not serializable") invalidArgument_ne_ok)
    | some wrapper => wrapper.serializer wrapper.value

end PolyValue

end RxCppUniq
