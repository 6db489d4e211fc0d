import RxCppUniq.Values.TypeSafety

/-!
# Values that Go over the Network

A `PolyValue` may be handed on in memory, or sent to another process: it is
serialized there, and the blob is packed on the other side. Who unpacks it
does not know which way it came.

The serializer is attached when the value is packed, and the traits of a blob
have none. So a value goes over the network once: the second sender has a
blob, which is not serializable. And on the network there is no type any
more: a message that was packed as a `SharedMsg` may be unpacked as a
`UniqueMsg`, which in memory is another type.

## Main definitions

* `PolyValue.Hop`: The two ways to hand on a value.
* `PolyValue.travel`, `PolyValue.receive`: What comes of a value on its way.
* `PolyValue.networkHops`: How often a way goes over the network.
* `PolyValue.MessageTravels`: What is received of a message.

## Theorems

* `PolyValue.travel_blob`, `PolyValue.travel_pack`: What a way comes to.
* `PolyValue.message_travels`: Messages are received over any way with one
  network hop at most.
-/

namespace RxCppUniq

open Theory ValueType

variable {P : Types}

namespace PolyValue

variable (specializations : Specializations P)

/-- The two ways to hand on a value. -/
inductive Hop where
  | memory
  | network
deriving DecidableEq, Repr

/-- A value is handed on. -/
def hop (p : PolyValue P) : Hop → Result (PolyValue P)
  | .memory => .ok (.value p)
  | .network => match serialize p with
    | .error e => .error e
    | .ok (.status s h) => .ok (.status s h)
    | .ok (.value blob) => .ok (.value (pack specializations .serializedValue blob))

/-- It is handed on again and again, unless there is a status. -/
def travel (p : PolyValue P) : List Hop → Result (PolyValue P)
  | [] => .ok (.value p)
  | h :: hops => match hop specializations p h with
    | .error e => .error e
    | .ok (.status s hs) => .ok (.status s hs)
    | .ok (.value next) => travel next hops

/-- It is unpacked at the end of its way. -/
def receive (t : ValueType P) (p : PolyValue P) (hops : List Hop) : Result t.Value :=
  match travel specializations p hops with
  | .error e => .error e
  | .ok (.status s h) => .ok (.status s h)
  | .ok (.value next) => unpack specializations t next

def networkHops : List Hop → Nat
  | [] => 0
  | .memory :: hops => networkHops hops
  | .network :: hops => networkHops hops + 1

/-- The status for a value without a serializer. -/
def notSerializable : Status :=
  rxStatus .invalidArgument "poly_value.cc:24" "value is not serializable"

section Travel

variable {specializations}

/-- A blob is sent nowhere. -/
theorem serialize_blob (blob : SerializedValue)
    (hnone : (traits specializations (.serializedValue)).available = false) :
    serialize (pack specializations .serializedValue blob) =
      .ok (.status notSerializable invalidArgument_ne_ok) := by
  have hpack : pack specializations .serializedValue blob =
      packNotCopyable specializations .serializedValue blob := if_neg Bool.false_ne_true
  rw [hpack]
  change serialize (attach (traits specializations .serializedValue).available
    (.sharedPtr .serializedValue) _ (some blob)) = _
  rw [hnone]
  rfl

/-- A way is empty or goes over the network when it does not stay in memory. -/
theorem travel_memory (p : PolyValue P) (hops : List Hop) (h : networkHops hops = 0) :
    travel specializations p hops = .ok (.value p) := by
  induction hops with
  | nil => rfl
  | cons first hops ih =>
      cases first with
      | memory => exact ih h
      | network => exact absurd h (Nat.succ_ne_zero _)

/-- What comes of a blob on its way. -/
theorem travel_blob (blob : SerializedValue) (hops : List Hop)
    (hnone : (traits specializations (.serializedValue)).available = false)
    (h : networkHops hops ≠ 0) :
    travel specializations (pack specializations .serializedValue blob) hops =
      .ok (.status notSerializable invalidArgument_ne_ok) := by
  induction hops with
  | nil => exact absurd rfl h
  | cons first hops ih =>
      cases first with
      | memory => exact ih h
      | network => rw [travel, hop, serialize_blob blob hnone]

/-- What comes of a value with a serializer: its first network hop decides. -/
theorem travel_pack (t : ValueType P) (v : t.Value) (hops : List Hop)
    (havailable : (traits specializations t).available = true) (n : Nat)
    (h : networkHops hops = n + 1) :
    (∀ s hs, (traits specializations t).serialize v = .ok (.status s hs) →
      travel specializations (pack specializations t v) hops = .ok (.status s hs)) ∧
    ∀ blob, (traits specializations t).serialize v = .ok (.value blob) →
      ∃ rest, networkHops rest = n ∧ travel specializations (pack specializations t v) hops =
        travel specializations (pack specializations .serializedValue blob) rest := by
  induction hops with
  | nil => exact absurd h (Ne.symm (Nat.succ_ne_zero _))
  | cons first hops ih =>
      cases first with
      | memory => exact ih h
      | network =>
          refine ⟨fun s hs hserialize => ?_, fun blob hserialize => ⟨hops, Nat.succ.inj h, ?_⟩⟩
          · rw [travel, hop, serialize_pack _ _ _ havailable, hserialize]
          · rw [travel, hop, serialize_pack _ _ _ havailable, hserialize]

end Travel

/-- The pointer types for a message. -/
def msg (shared : Bool) (m : P.Message) : ValueType P :=
  if shared then .sharedMsg m else .uniqueMsg m

/-- A pointer to the message. -/
def pointer (shared : Bool) (m : P.Message) (c : P.Content m) : (msg shared m).Value :=
  match shared with
  | true => some c
  | false => some c

section Traits

variable {m : P.Message} (missing place : String) (c : P.Content m) (bytes : List UInt8)

theorem serializeMessage_some (h : P.serializeToArray m c = some bytes) :
    SerializationTraits.serializeMessage m missing place (some c) = .ok (.value (some bytes)) := by
  simp only [SerializationTraits.serializeMessage, h]

theorem serializeMessage_none (h : P.serializeToArray m c = none) :
    SerializationTraits.serializeMessage m missing place (some c) =
      .ok (.status (rxStatus .internal place "serialization failed") internal_ne_ok) := by
  simp only [SerializationTraits.serializeMessage, h]

theorem parseMessage_some (h : P.parseFromArray m bytes = some c) :
    SerializationTraits.parseMessage m place (some bytes) = .ok (.value (some c)) := by
  simp only [SerializationTraits.parseMessage, h]

end Traits

/-- What the traits of the header do with a message. -/
structure MessageTraits (shared : Bool) (m : P.Message) (c : P.Content m) : Prop where
  available : (traits specializations (msg shared m)).available = true
  serialized : ∀ bytes, P.serializeToArray m c = some bytes →
    (traits specializations (msg shared m)).serialize (pointer shared m c) =
      .ok (.value (some bytes))
  failed : P.serializeToArray m c = none → ∃ place,
    (traits specializations (msg shared m)).serialize (pointer shared m c) =
      .ok (.status (rxStatus .internal place "serialization failed") internal_ne_ok)
  parsed : ∀ bytes, P.parseFromArray m bytes = some c →
    (traits specializations (msg shared m)).parse (some bytes) = .ok (.value (pointer shared m c))

theorem messageTraits (shared : Bool) (m : P.Message) (c : P.Content m)
    (hnone : specializations (msg shared m) = none) :
    MessageTraits specializations shared m c := by
  have htraits :
      traits specializations (msg shared m) = SerializationTraits.header (msg shared m) := by
    rw [traits, hnone, Option.getD_none]
  cases shared with
  | true =>
      refine ⟨?_, fun bytes h => ?_, fun h => ⟨"poly_value.h:264", ?_⟩, fun bytes h => ?_⟩
      · rw [htraits]
        rfl
      · rw [htraits]
        exact serializeMessage_some "implementation missing" "poly_value.h:264" c bytes h
      · rw [htraits]
        exact serializeMessage_none "implementation missing" "poly_value.h:264" c h
      · rw [htraits]
        exact parseMessage_some "poly_value.h:274" c bytes h
  | false =>
      refine ⟨?_, fun bytes h => ?_, fun h => ⟨"poly_value.h:290", ?_⟩, fun bytes h => ?_⟩
      · rw [htraits]
        rfl
      · rw [htraits]
        exact serializeMessage_some "implementation missing (maybe moved)" "poly_value.h:290" c
          bytes h
      · rw [htraits]
        exact serializeMessage_none "implementation missing (maybe moved)" "poly_value.h:290" c h
      · rw [htraits]
        exact parseMessage_some "poly_value.h:300" c bytes h

/-- What is received of a message. -/
structure MessageTravels (shared shared' : Bool) (m : P.Message) (c : P.Content m)
    (hops : List Hop) : Prop where
  /-- In memory the two pointers are two types. -/
  memory : networkHops hops = 0 →
    receive specializations (msg shared' m)
        (pack specializations (msg shared m) (pointer shared m c)) hops =
      if shared = shared' then .ok (.value (pointer shared' m c))
      else .ok (.status wrongType invalidArgument_ne_ok)
  /-- Over the network either is received. -/
  network : networkHops hops = 1 → P.serializeToArray m c ≠ none →
    receive specializations (msg shared' m)
        (pack specializations (msg shared m) (pointer shared m c)) hops =
      .ok (.value (pointer shared' m c))
  /-- It goes there once. -/
  again : 1 < networkHops hops → P.serializeToArray m c ≠ none →
    receive specializations (msg shared' m)
        (pack specializations (msg shared m) (pointer shared m c)) hops =
      .ok (.status notSerializable invalidArgument_ne_ok)
  failed : 0 < networkHops hops → P.serializeToArray m c = none → ∃ place,
    receive specializations (msg shared' m)
        (pack specializations (msg shared m) (pointer shared m c)) hops =
      .ok (.status (rxStatus .internal place "serialization failed") internal_ne_ok)

/-- A message arrives over any way with one network hop at most, when it is
    parsed from the bytes it was written as; over more there is a status. -/
theorem message_travels (m : P.Message) (c : P.Content m)
    (hparse : ∀ bytes, P.serializeToArray m c = some bytes → P.parseFromArray m bytes = some c)
    (hnone : ∀ shared, specializations (msg shared m) = none)
    (hblob : specializations .serializedValue = none) (shared shared' : Bool) (hops : List Hop) :
    MessageTravels specializations shared shared' m c hops := by
  have htraits := messageTraits specializations shared m c (hnone shared)
  have htraits' := messageTraits specializations shared' m c (hnone shared')
  have hunavailable : (traits specializations (.serializedValue)).available = false := by
    rw [traits, hblob, Option.getD_none]
    rfl
  have hnotBlob : ∀ s, ¬Blob specializations (msg s m) := by
    intro s hs
    have havailable := (messageTraits specializations s m c (hnone s)).available
    exact absurd (hs.1.symm.trans havailable) Bool.false_ne_true
  refine ⟨fun hzero => ?_, fun hone hsome => ?_, fun htwo hsome => ?_, fun hpos hfail => ?_⟩
  · rw [receive, travel_memory _ hops hzero]
    -- the two pointers to a message are different types, so unpacking tells them apart
    by_cases hsame : shared = shared'
    · subst hsame
      rw [if_pos rfl]
      exact unpack_pack specializations _ _ (hnotBlob shared)
    · rw [if_neg hsame]
      refine unpack_of_ne specializations _ _ _ (hnotBlob shared) ?_
      cases shared <;> cases shared' <;>
        simp only [heldAs, msg, copyable, ne_eq, reduceCtorEq, not_false_eq_true, if_true, if_false,
          Bool.false_eq_true, not_true_eq_false] at hsame ⊢
  · rcases Option.ne_none_iff_exists'.mp hsome with ⟨bytes, hbytes⟩
    rcases (travel_pack _ (pointer shared m c) hops htraits.available 0 hone).2 _
      (htraits.serialized bytes hbytes) with ⟨rest, hrest, htravel⟩
    rw [receive, htravel, travel_memory _ rest hrest]
    exact (unpack_blob specializations _ _ hunavailable).trans
      (htraits'.parsed bytes (hparse bytes hbytes))
  · rcases Option.ne_none_iff_exists'.mp hsome with ⟨bytes, hbytes⟩
    rcases Nat.exists_eq_add_of_lt htwo with ⟨k, hk⟩
    have hcount : networkHops hops = (k + 1) + 1 := by omega
    rcases (travel_pack _ (pointer shared m c) hops htraits.available (k + 1) hcount).2 _
      (htraits.serialized bytes hbytes) with ⟨rest, hrest, htravel⟩
    rw [receive, htravel, travel_blob _ rest hunavailable (by omega)]
  · rcases htraits.failed hfail with ⟨place, hplace⟩
    have hcount : networkHops hops = (networkHops hops - 1) + 1 := by omega
    refine ⟨place, ?_⟩
    rw [receive, (travel_pack _ (pointer shared m c) hops htraits.available _ hcount).1 _ _ hplace]

/-- A program with one message, which is the bytes it is written as. -/
def echoTypes : Types where
  Class := Empty
  Message := Unit
  classEq := inferInstance
  messageEq := inferInstance
  Object _ := Unit
  copyable _ := true
  Content _ := List UInt8
  serializeToArray _ bytes := some bytes
  parseFromArray _ bytes := some bytes

theorem message_travels_echo :
    MessageTravels (P := echoTypes) (fun _ => none) true false () [7] [.memory, .network] :=
  message_travels (P := echoTypes) (fun _ => none) () [7] (fun _ h => h.symm) (fun _ => rfl) rfl
    true false [.memory, .network]

/-- It was sent as a `SharedMsg` and is received as a `UniqueMsg`. -/
example : receive (P := echoTypes) (fun _ => none) (.uniqueMsg ())
    (pack (fun _ => none) (.sharedMsg ()) (some [7])) [.memory, .network] =
    .ok (.value (some [7])) :=
  rfl

end PolyValue

end RxCppUniq
