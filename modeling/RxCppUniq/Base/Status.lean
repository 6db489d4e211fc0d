/-!
# Statuses and Events

The values that travel along a stream. A stream does not have separate
callbacks for values, errors and completion: each event is a `StatusOr`, a
value or a status which is not `OK`. The code `OUT_OF_RANGE` is the end
marker, every other code but `OK` is an error.

The C++ constructor of `StatusOr` checks that the status it is given is not
`OK`. Here the check is a field, so an event without a value always carries
a status that ends the stream.

## Main definitions

* `StatusCode`, `Status`: The canonical codes, and a code with its message.
* `StatusOr`: A value or a status which is not `OK`.
* `done`: The end marker.
* `StatusOr.isEnd`, `StatusOr.isDone`, `StatusOr.isError`: The predicates
  the operators branch on.
-/

namespace RxCppUniq

/-- The canonical codes of `status.proto`. -/
inductive StatusCode where
  | ok
  | cancelled
  | unknown
  | invalidArgument
  | deadlineExceeded
  | notFound
  | alreadyExists
  | permissionDenied
  | unauthenticated
  | resourceExhausted
  | failedPrecondition
  | aborted
  | outOfRange
  | unimplemented
  | internal
  | unavailable
  | dataLoss
deriving DecidableEq, Repr

/-- A code with the message meant for the developer. -/
structure Status where
  code : StatusCode
  message : String := ""
deriving DecidableEq, Repr

/-- A value, or a status which says why there is none. -/
inductive StatusOr (T : Type) where
  | value (v : T)
  | status (s : Status) (notOk : s.code ≠ .ok)
deriving DecidableEq, Repr

/-- `RX_STATUS(code) << message`, with the place in the source that the
    builder puts in front of the message. -/
def rxStatus (code : StatusCode) (place message : String) : Status :=
  { code := code, message := "(at " ++ place ++ ") " ++ message }

namespace StatusOr

variable {T R : Type}

/-- The end marker `Done()`. -/
def done : StatusOr T :=
  .status { code := .outOfRange } (by decide)

/-- The code of `status()`, which is `OK` when there is a value. -/
def code : StatusOr T → StatusCode
  | .value _ => .ok
  | .status s _ => s.code

/-- Either `Done` or an error. -/
def isEnd (e : StatusOr T) : Bool :=
  e.code != .ok

def isDone (e : StatusOr T) : Bool :=
  e.code == .outOfRange

/-- An error, excluding the special code for `Done`. -/
def isError (e : StatusOr T) : Bool :=
  e.code != .ok && !e.isDone

/-- Apply a function that may fail itself to the value, and pass a status on
    as it is. -/
def bind (f : T → StatusOr R) : StatusOr T → StatusOr R
  | .value v => f v
  | .status s h => .status s h

@[simp] theorem isEnd_value (v : T) : (value v).isEnd = false := rfl

@[simp] theorem isEnd_status (s : Status) (h : s.code ≠ .ok) :
    (status s h : StatusOr T).isEnd = true := by
  simpa only [isEnd, code, bne_iff_ne] using h

@[simp] theorem isDone_value (v : T) : (value v).isDone = false := rfl

@[simp] theorem isDone_status (s : Status) (h : s.code ≠ .ok) :
    (status s h : StatusOr T).isDone = (s.code == .outOfRange) := rfl

@[simp] theorem isError_value (v : T) : (value v).isError = false := rfl

/-- A status is either the end marker or an error. -/
@[simp] theorem isError_status (s : Status) (h : s.code ≠ .ok) :
    (status s h : StatusOr T).isError = !(s.code == .outOfRange) := by
  have hend : (s.code != .ok) = true := by simpa only [bne_iff_ne] using h
  simp only [isError, code, hend, isDone, Bool.true_and]

theorem isEnd_of_isError (e : StatusOr T) (h : e.isError = true) : e.isEnd = true := by
  cases e with
  | value v => exact absurd h (by simp only [isError_value, Bool.false_eq_true, not_false_eq_true])
  | status s hs => exact isEnd_status s hs

end StatusOr

end RxCppUniq
