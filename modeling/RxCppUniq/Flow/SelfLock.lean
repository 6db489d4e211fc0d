import RxCppUniq.Reactive.Stream
import RxCppUniq.Theory.Frames

/-!
# Streams that Hold Themselves

A stream whose lifetime is not that of an upstream holds a pointer to itself,
which it drops after it has delivered its last event. A cancellation is passed
on to the upstream, and does not drop the pointer. So such a stream does not
end unless it has delivered an end.

A lock is given by the states in which the pointer is there and the stream has
not ended, and by the points at which it is dropped. What the code owes for it
is stated for one piece of code at a time.

## Main definitions

* `delivered`: The subscriber has received an end.
* `Lock`: When a stream holds itself.
* `Lock.Keeps`: What a piece of code owes.
* `cancelled`: The state after a call of `Cancel`.
* `CancelHonoured`: What it is for a cancellation to be honoured.

## Theorems

* `Lock.holds_reach`: A stream that holds itself ends only after it has
  delivered an end.
* `Lock.not_honoured`: It honours no cancellation.
-/

namespace RxCppUniq

open Theory

variable {R ι : Type} {T : ι → Type}

/-- The subscriber has received the event that ends the stream. -/
def delivered (log : Log R ι T) : Bool :=
  (received log).any (·.isEnd)

/-- What was delivered stays so. -/
theorem delivered_cons (n : Entry R ι T) (log : Log R ι T) (h : delivered log = true) :
    delivered (n :: log) = true := by
  rw [delivered, received_cons, List.any_append]
  rw [delivered] at h
  rw [h, Bool.true_or]

theorem delivered_append (new log : Log R ι T) (h : delivered log = true) :
    delivered (new ++ log) = true := by
  induction new with
  | nil => exact h
  | cons n new ih => exact delivered_cons n _ ih

theorem delivered_end (e : StatusOr R) (log : Log R ι T) (h : e.isEnd = true) :
    delivered (.out (.onNext e) :: log) = true := by
  rw [delivered, received_cons]
  simp only [Entry.received, Signal.event?, Option.toList_some, List.any_append, List.any_cons, h,
    Bool.true_or, Bool.or_true]

/-- An act only adds to what was delivered. -/
theorem delivered_act {K : Type} (kinds : List ι) (log : Log R ι T)
    (a : Act Call (Signal R) ι K) (h : delivered log = true) :
    delivered (a.log kinds log) = true := by
  cases a with
  | ret => exact h
  | goto k => exact h
  | out o k => exact delivered_cons _ log h
  | ask p c k => exact delivered_cons _ log h
  | make i c k => exact delivered_cons _ log h
  | fail msg => exact h

/-- When a stream holds itself, and where it stops to. -/
structure Lock (M : Operator R ι T) where
  held : M.State → Prop
  drops : M.Point → Prop
  /-- A stream that holds itself has not ended. -/
  live : ∀ s, held s → M.look s = false
  fresh : M.look M.start = false

namespace Lock

variable {M : Operator R ι T} (lock : Lock M)

/-- What a piece of code owes that ends with `r`: the stream still holds
    itself, and goes on at a point where it does not only after it has
    delivered an end. -/
def Keeps (r : M.State × Act Call (Signal R) ι M.Point) : Prop :=
  (∃ msg, r.2 = .fail msg) ∨
    lock.held r.1 ∧ ∀ k, r.2.next = some k → lock.drops k →
      ∃ e, r.2 = .out (.onNext e) k ∧ e.isEnd = true

/-- The invariant. -/
def spec : Open.Spec M where
  Core s kinds log :=
    log = [] ∧ kinds = [] ∧ M.look s = false ∨ lock.held s ∨ delivered log = true
  Frame k _ _ log := lock.drops k → delivered log = true
  Safe _ _ := True

/-- A piece of code that keeps the lock keeps the invariant. -/
theorem Keeps.spec {lock : Lock M} (s : M.State) (kinds : List ι) (before log : Log R ι T)
    (hlog : delivered before = true → delivered log = true)
    (r : M.State × Act Call (Signal R) ι M.Point) (h : lock.Keeps r) :
    lock.spec.Keeps s kinds before log r := by
  refine ⟨trivial, ?_, fun k hk hdrops => ?_, fun k _ hframe hdrops => ?_⟩
  · rcases h with hfail | ⟨hheld, -⟩
    · exact Or.inl hfail
    · exact Or.inr (Or.inr (Or.inl hheld))
  · rcases h with ⟨msg, hfail⟩ | ⟨-, hnext⟩
    · rw [hfail] at hk
      exact absurd hk (Option.some_ne_none k).symm
    · rcases hnext k hk hdrops with ⟨e, hact, hend⟩
      rw [hact]
      exact delivered_end e log hend
  · exact delivered_act kinds log r.2 (hlog (hframe hdrops))

/-- Once an end has been delivered nothing is owed. -/
theorem spec_of_delivered (s : M.State) (kinds : List ι) (before log : Log R ι T)
    (h : delivered log = true) (r : M.State × Act Call (Signal R) ι M.Point) :
    lock.spec.Keeps s kinds before log r :=
  ⟨trivial, Or.inr (Or.inr (Or.inr (delivered_act kinds log r.2 h))),
    fun _ _ _ => delivered_act kinds log r.2 h, fun _ _ _ _ => delivered_act kinds log r.2 h⟩

/-- A stream that holds itself ends only after it has delivered an end. -/
theorem holds_reach (allow : Open M → Move Call Bool ι (fun i => Signal (T i)) → Prop)
    (hfirst : ∀ st c, allow st (.call c) → st.log = [] → c = .subscribe)
    (hsubscribe : ∀ views s, M.look s = false → lock.Keeps (M.call views s .subscribe))
    (hcall : ∀ views s c, lock.held s → lock.Keeps (M.call views s c))
    (hsaid : ∀ views s p i o, lock.held s → lock.Keeps (M.said views s p i o))
    (hresume : ∀ views s k, lock.held s → ¬ lock.drops k → lock.Keeps (M.resume views s k))
    (st : Open M) (h : Open.Reach subscriptionCheck allow st) : lock.spec.Holds st := by
  refine lock.spec.holds_reach subscriptionCheck allow (Or.inl ⟨rfl, rfl, lock.fresh⟩) ?_ ?_ ?_ st h
  · intro st c _ hok _ hcore
    have hmono := delivered_cons (.call c) st.log
    rcases hcore with ⟨hnil, -, hlive⟩ | hheld | hdelivered
    · rw [hfirst st c hok hnil]
      exact (hsubscribe _ _ hlive).spec _ _ _ _ (delivered_cons _ st.log) _
    · exact (hcall _ _ c hheld).spec _ _ _ _ hmono _
    · exact lock.spec_of_delivered _ _ _ _ (hmono hdelivered) _
  · intro st p i o _ _ hkind hcore
    have hmono := delivered_cons (.said p i o) st.log
    rcases hcore with ⟨-, hnil, -⟩ | hheld | hdelivered
    · rw [hnil] at hkind
      exact absurd hkind (by simp only [List.getElem?_nil, reduceCtorEq, not_false_eq_true])
    · exact (hsaid _ _ p i o hheld).spec _ _ _ _ hmono _
    · exact lock.spec_of_delivered _ _ _ _ (hmono hdelivered) _
  · intro st k hresumes hreach hcore hframe
    by_cases hdelivered : delivered st.log = true
    · exact lock.spec_of_delivered _ _ _ _ hdelivered _
    · rcases hcore with ⟨hnil, -⟩ | hheld | hyes
      · exact absurd hnil (hresumes.log_ne_nil hreach)
      · exact (hresume _ _ k hheld fun hdrops => hdelivered (hframe hdrops)).spec _ _ _ _ id _
      · exact absurd hyes hdelivered

end Lock

section Cancel

variable {M : Operator R ι T}

/-- The first call is a subscription. -/
theorem PartnerRules.first {st : Open M} {c : Call} (h : PartnerRules st (.call c))
    (hnil : st.log = []) : c = .subscribe := by
  have hsubscriber : Protocol.subscriber st.log c := h
  rw [hnil] at hsubscriber
  cases c with
  | subscribe => rfl
  | request n => exact absurd hsubscriber.1 Bool.false_ne_true
  | cancel => exact absurd hsubscriber Bool.false_ne_true

/-- The state after a call of `Cancel`. -/
def cancelled (st : Open M) : Open M :=
  Open.perform subscriptionCheck { st with log := .call .cancel :: st.log }
    (M.call st.views st.state .cancel)

/-- What it is for a cancellation to be honoured: the call fails no check, no
    event is delivered in any run that goes on from there, and there is one
    in which the subscription ends. -/
structure CancelHonoured (allow : Open M → Move Call Bool ι (fun i => Signal (T i)) → Prop)
    (st : Open M) : Prop where
  accepted : (cancelled st).turn.isFailed = false
  silent : ∀ later, Open.Later subscriptionCheck allow (cancelled st) later →
    received later.log = received st.log
  ended : ∃ later, Open.Later subscriptionCheck allow (cancelled st) later ∧
    later.turn.isFailed = false ∧ M.look later.state = true

/-- A stream that holds itself does not end without delivering an end, so it
    honours no cancellation. -/
theorem Lock.not_honoured (lock : Lock M)
    (allow : Open M → Move Call Bool ι (fun i => Signal (T i)) → Prop)
    (hholds : ∀ st, Open.Reach subscriptionCheck allow st → lock.spec.Holds st) (st : Open M)
    (h : Open.Reach subscriptionCheck allow st) (hturn : st.turn = .outside)
    (hopen : M.look st.state = false) (hok : allow st (.call .cancel))
    (hrun : delivered st.log = false) : ¬ CancelHonoured allow st := by
  intro hhonoured
  have hstep : Open.Step subscriptionCheck allow st (cancelled st) :=
    .call st .cancel hturn (by rw [hopen]; rfl) hok
  rcases hhonoured.ended with ⟨later, hlater, hrunning, hended⟩
  have hsilent := hhonoured.silent later hlater
  rcases hholds later ((h.step _ _ hstep).later hlater) with ⟨-, hcore, -⟩ | ⟨hfailed, -⟩
  · rcases hcore with ⟨-, -, hlive⟩ | hheld | hdelivered
    · exact absurd (hlive.symm.trans hended) Bool.false_ne_true
    · exact absurd ((lock.live _ hheld).symm.trans hended) Bool.false_ne_true
    · rw [delivered, hsilent] at hdelivered
      exact absurd (hrun.symm.trans hdelivered) Bool.false_ne_true
  · exact absurd (hrunning.symm.trans hfailed) Bool.false_ne_true

end Cancel

end RxCppUniq
