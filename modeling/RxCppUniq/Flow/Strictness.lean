import RxCppUniq.Flow.ChainingStrict
import RxCppUniq.Flow.ConcatStrict
import RxCppUniq.Flow.FlatMapRuns
import RxCppUniq.Flow.MergeStrict
import RxCppUniq.Flow.PrefetchStrict

/-!
# Strict Flow Control

The operators side by side. Each of them is strict towards its subscriber
when the streams it subscribes to are, in every run that keeps the condition
of the operator. `Map` has none, `FlatMap` wants room for each request, and
`Buffer` wants demand left for the end of the stream. Those that keep the
demand in a balance are strict until the balance is infinite, and then for as
many events as it stands for.

## Theorems

* `operators_strict`: Strict flow control is preserved by every operator under
  its condition.
-/

namespace RxCppUniq

open Theory

/-- Strict flow control is preserved by every operator, in every run that
    keeps the operator's condition. -/
theorem operators_strict (T R ι : Type) (U : ι → Type) :
    (∀ (func : T → R)
      (st : Open (ChainingStream.component (ChainingFunc.map fun v => .value (func v)))),
      Open.Reach subscriptionCheck RequestRules st → StrictFlow st.log) ∧
    (∀ size : Nat, 1 ≤ size →
      ∀ st : Open (ChainingStream.component (ChainingFunc.buffer size : ChainingFunc T (List T))),
      Open.Reach subscriptionCheck (ChainingFunc.BufferRules size) st → StrictFlow st.log) ∧
    (∀ st : Open (FlatMapStream.component T R),
      Open.Reach subscriptionCheck (FlatMapStream.Rules true false) st →
        (unlimited st.log = false ∨ (received st.log).length ≤ kMax) → StrictFlow st.log) ∧
    (∀ st : Open (ConcatStream.component T),
      Open.Reach subscriptionCheck RequestRules st →
        (unlimited st.log = false ∨ (received st.log).length ≤ kMax) → StrictFlow st.log) ∧
    (∀ publisher : PrefetchingPublisher, 1 ≤ publisher.bufferSize →
      ∀ st : Open (PrefetchingStream.component T publisher),
      Open.Reach subscriptionCheck RequestRules st →
        (unlimited st.log = false ∨ (received st.log).length ≤ kMax) → StrictFlow st.log) ∧
    ∀ (publisher : MergePublisher ι) (st : Open (MergeStream.component U publisher)),
      Open.Reach subscriptionCheck RequestRules st →
        (unlimited st.log = false ∨ (received st.log).length ≤ kMax) → StrictFlow st.log := by
  refine ⟨?_, ?_, ?_, ?_, ?_, ?_⟩
  · intro func st h
    exact ChainingFunc.strictly_map func st h
  · intro size hsize st h
    exact ChainingFunc.strictly_buffer size hsize st h
  · intro st h hlimit
    exact (FlatMapStream.limited st h).strict hlimit
  · intro st h hlimit
    exact (ConcatStream.limited st h).strict hlimit
  · intro publisher _ st h hlimit
    exact (PrefetchingStream.limited st h).strict hlimit
  · intro publisher st h hlimit
    exact (MergeStream.limited st h).strict hlimit

/-- Three tokens for a buffer of two, and a base with three values: a full
    buffer, the rest and the end. -/
def flushMoves : List (Move Call Bool Unit (fun _ => Signal Nat)) :=
  [.call .subscribe, .said 0 () .onSubscribe, .call (.request 3),
    .said 0 () (.onNext (.value 1)), .said 0 () (.onNext (.value 2)), .reply,
    .said 0 () (.onNext (.value 3)), .said 0 () (.onNext .done), .reply]

/-- An infinite demand, which `Concat` passes on from its first stream to the
    second. -/
def infiniteMoves : List (Move Call Bool Half (fun _ => Signal Nat)) :=
  [.call .subscribe, .said 0 .first .onSubscribe, .call (.request kMax), .reply, .reply,
    .said 0 .first (.onNext (.value 1)), .reply, .said 0 .first (.onNext .done),
    .said 1 .second .onSubscribe, .reply, .said 1 .second (.onNext .done)]

theorem operators_strict_buffer :
    (∃ st : Open (ChainingStream.component (ChainingFunc.buffer 2 : ChainingFunc Nat (List Nat))),
      Open.Reach subscriptionCheck (ChainingFunc.BufferRules 2) st ∧
        received st.log = [.value [1, 2], .value [3], .done] ∧ StrictFlow st.log) ∧
    ∃ st : Open (ConcatStream.component Nat),
      Open.Reach subscriptionCheck RequestRules st ∧ unlimited st.log = true ∧
        received st.log = [.value 1, .done] ∧ StrictFlow st.log := by
  constructor
  · rcases Open.exists_reach_of_play subscriptionCheck (ChainingFunc.BufferRules 2) flushMoves
      (fun st : Open (ChainingStream.component
        (ChainingFunc.buffer 2 : ChainingFunc Nat (List Nat))) =>
        received st.log == [.value [1, 2], .value [3], .done])
      (by decide +kernel) with ⟨st, hst, htest⟩
    rw [beq_iff_eq] at htest
    exact ⟨st, hst, htest, (operators_strict Nat Nat Unit fun _ => Nat).2.1 2 (by decide) st hst⟩
  · rcases Open.exists_reach_of_play subscriptionCheck RequestRules infiniteMoves
      (fun st : Open (ConcatStream.component Nat) =>
        unlimited st.log && received st.log == [.value 1, .done])
      (by decide +kernel) with ⟨st, hst, htest⟩
    rw [Bool.and_eq_true, beq_iff_eq] at htest
    have hfew : (received st.log).length ≤ kMax := by
      rw [htest.2]
      decide
    exact ⟨st, hst, htest.1, htest.2,
      (operators_strict Nat Nat Unit fun _ => Nat).2.2.2.1 st hst (Or.inr hfew)⟩

end RxCppUniq
