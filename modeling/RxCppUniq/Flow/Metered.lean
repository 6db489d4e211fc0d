import RxCppUniq.Reactive.Stream

/-!
# Metered Demand

Most operators keep what is left of the demand in a balance. Below `kMax` such
a balance counts exactly. At `kMax` it means infinite and stays what it is,
however many events are delivered, so from then on an operator delivers
whatever it is sent. Its flow control is strict all the same until it has
delivered more than `kMax` events, which is less than was requested.

## Main definitions

* `RequestRules`: What the partners may do.
* `FlowWhen`: Strict flow control, where the demand is looked at on a
  condition only.
* `LimitedFlow`: Strict flow control as far as balances go.
* `Metered`: A balance keeps what is left of the demand.

## Theorems

* `Metered.request`, `Metered.remove`: The balance stays metered.
* `LimitedFlow.strict`: Up to `kMax` events the flow control is strict.
-/

namespace RxCppUniq

open Theory

variable {R ι : Type} {T : ι → Type}

/-- The rules under which an operator is to have strict flow control itself:
    the streams it subscribes to have it, and the subscriber does not
    cancel. -/
def RequestRules {M : Operator R ι T} (st : Open M) :
    Move Call Bool ι (fun i => Signal (T i)) → Prop
  | .call c => Protocol.subscriber st.log c ∧ c ≠ .cancel
  | .said p _ s => Protocol.stream p st.log s
  | .reply => True
  | .view _ _ => True
  | .run => True

instance {M : Operator R ι T} (st : Open M) (m : Move Call Bool ι (fun i => Signal (T i))) :
    Decidable (RequestRules st m) :=
  match m with
  | .call _ => inferInstanceAs (Decidable (_ ∧ _))
  | .said _ _ _ => inferInstanceAs (Decidable (Protocol.stream _ _ _))
  | .reply => inferInstanceAs (Decidable True)
  | .view _ _ => inferInstanceAs (Decidable True)
  | .run => inferInstanceAs (Decidable True)

/-- Only the last event is an end, and where `counted` holds there are no more
    events than were requested. -/
structure FlowWhen (counted : Prop) (log : Log R ι T) : Prop where
  paid : counted → (received log).length ≤ demand log
  orderly : ∀ e ∈ (received log).dropLast, e.isEnd = false

/-- Strict flow control as far as balances go. -/
abbrev LimitedFlow (log : Log R ι T) : Prop :=
  FlowWhen (unlimited log = false) log

/-- What is left of the demand after `count` events is in the balance. -/
def Metered (b : RequestBalance) (count : Nat) (log : Log R ι T) : Prop :=
  unlimited log = false → b.balance < kMax ∧ b.balance + count = demand log

section Flow

variable {counted : Prop} {log : Log R ι T}

theorem flowWhen_nil (counted : Prop) : FlowWhen counted ([] : Log R ι T) :=
  ⟨fun _ => Nat.le_refl _, fun _ he => absurd he List.not_mem_nil⟩

theorem FlowWhen.strict (h : FlowWhen counted log)
    (hpaid : counted ∨ (received log).length ≤ demand log) : StrictFlow log := by
  refine ⟨?_, fun c hc => ?_⟩
  · rw [List.length_map]
    rcases hpaid with hcounted | hle
    · exact h.paid hcounted
    · exact hle
  · rw [← List.map_dropLast] at hc
    rcases List.mem_map.mp hc with ⟨e, he, rfl⟩
    have hval := h.orderly e he
    rwa [StatusOr.isEnd, bne_eq_false_iff_eq] at hval

/-- A call that delivers nothing. -/
theorem FlowWhen.silent (h : FlowWhen counted log) (n : Entry R ι T) (hn : n.received = none) :
    FlowWhen counted (n :: log) := by
  have hreceived : received (n :: log) = received log := by
    rw [received_cons, hn, Option.toList_none, List.append_nil]
  refine ⟨fun hcounted => ?_, ?_⟩
  · rw [hreceived, demand_cons]
    exact Nat.le_add_right_of_le (h.paid hcounted)
  · rw [hreceived]
    exact h.orderly

/-- An event may be delivered when demand is left and none before was an
    end. -/
theorem flowWhen_onNext (log : Log R ι T) (e : StatusOr R)
    (hlt : counted → (received log).length < demand log)
    (hrun : ∀ x ∈ received log, x.isEnd = false) : FlowWhen counted (.out (.onNext e) :: log) := by
  have hreceived : received (.out (.onNext e) :: log) = received log ++ [e] :=
    received_cons _ _
  refine ⟨fun hcounted => ?_, ?_⟩
  · rw [hreceived, List.length_append, List.length_singleton, demand_cons]
    exact hlt hcounted
  · rw [hreceived, List.dropLast_concat]
    exact hrun

theorem LimitedFlow.silent (h : LimitedFlow log) (n : Entry R ι T) (hn : n.received = none) :
    LimitedFlow (n :: log) := by
  have hflow := FlowWhen.silent h n hn
  exact ⟨fun hno => hflow.paid (unlimited_of_cons hno), hflow.orderly⟩

theorem limitedFlow_onNext (log : Log R ι T) (e : StatusOr R)
    (hlt : unlimited log = false → (received log).length < demand log)
    (hrun : ∀ x ∈ received log, x.isEnd = false) : LimitedFlow (.out (.onNext e) :: log) :=
  flowWhen_onNext log e (fun hno => hlt (unlimited_of_cons hno)) hrun

/-- Up to `kMax` events the flow control is strict, also where the demand was
    infinite. -/
theorem LimitedFlow.strict (h : LimitedFlow log)
    (hlimit : unlimited log = false ∨ (received log).length ≤ kMax) : StrictFlow log := by
  refine FlowWhen.strict h ?_
  cases hinfinite : unlimited log with
  | false => exact Or.inl rfl
  | true =>
      rcases hlimit with hno | hle
      · exact absurd (hno.symm.trans hinfinite) Bool.false_ne_true
      · exact Or.inr (Nat.le_trans hle (kMax_le_demand log hinfinite))

end Flow

namespace Metered

variable {b b' : RequestBalance} {count : Nat} {log : Log R ι T}

theorem nil : Metered .zero 0 ([] : Log R ι T) :=
  fun _ => ⟨by decide, rfl⟩

/-- A call that asks for nothing. -/
theorem quiet (h : Metered b count log) (n : Entry R ι T) (hn : n.demand = 0) :
    Metered b count (n :: log) := by
  intro hno
  rw [demand_cons, hn]
  exact h (unlimited_of_cons hno)

/-- A request is added to the balance. The counted events may include an
    end. -/
theorem request (h : Metered b count log) (hcount : values (received log) ≤ count) (n : Nat) :
    Metered (b.add n) count (.call (.request n) :: log) := by
  intro hno
  rcases h (unlimited_of_cons hno) with ⟨hfits, hbal⟩
  rw [unlimited_cons, Bool.or_eq_false_iff, decide_eq_false_iff_not] at hno
  have hlt := hno.2
  simp only [Entry.demand, Call.count] at hlt
  have hadd := RequestBalance.balance_add_of_lt b n (by omega)
  rw [demand_cons, hadd]
  simp only [Entry.demand, Call.count]
  omega

/-- An event takes a token from the balance. -/
theorem remove (h : Metered b count log) (k : Nat) (hremove : b.remove k = some b') :
    Metered b' (count + k) log := by
  intro hno
  rcases h hno with ⟨hfits, hbal⟩
  have hsub := RequestBalance.remove_of_lt b b' k hfits hremove
  omega

/-- Where the balance has a token there is demand for one more event. -/
theorem lt (h : Metered b count log) (hpos : 0 < b.balance) (hno : unlimited log = false) :
    count < demand log := by
  have hbal := (h hno).2
  omega

end Metered

end RxCppUniq
