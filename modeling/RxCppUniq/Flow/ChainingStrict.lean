import RxCppUniq.Flow.Metered
import RxCppUniq.Reactive.Chaining
import RxCppUniq.Theory.Modes

/-!
# Strict Flow Control in Chaining Streams

A `ChainingStream` is strict towards its subscriber when its function makes
an event of so many base elements as the stream asks for in place of one, and
keeps count of those it holds back. `Buffer` does so until its last event: it
is asked for `size` elements per token, but when the base is done it sends
what it holds back as an event of its own and the `Done` as another, with
one token to pay for both.

## Main definitions

* `ChainingFunc.Accounted`: The function keeps count.
* `ChainingStream.flow`: The invariant.
* `ChainingFunc.BufferRules`: What the partners of `Buffer` may do.

## Theorems

* `ChainingStream.strictly`: With demand left for the second of two events the
  flow control is strict.
* `ChainingFunc.accounted_map`, `ChainingFunc.accounted_buffer`: The operators
  keep count.
* `ChainingFunc.strictly_map`, `ChainingFunc.strictly_buffer`: What this comes
  to for them.
* `ChainingFunc.buffer_overruns`: Without demand for it the end of the stream is
  sent all the same.
-/

namespace RxCppUniq

open Theory

namespace ChainingFunc

variable {T R : Type}

/-- A function that keeps count: it asks for at most `size` base elements per
    token, and sends an event for `size` of them. `held` are the elements it
    holds back, and `last` says that what is left of it is the event that ends
    the stream. -/
structure Accounted (f : ChainingFunc T R) (size : Nat) where
  held : f.Captured → Nat
  last : f.Rest → Bool
  pos : 1 ≤ size
  mapping : ∀ n, f.requestMapping n ≤ size * n
  start : held f.captured = 0
  value : ∀ c v, held (f.func c (.value v)).1 ≤ held c + 1 ∧
    ∀ e k, (f.func c (.value v)).2 = some (e, k) →
      e.isEnd = false ∧ held (f.func c (.value v)).1 + size ≤ held c + 1 ∧ ∀ r ∈ k, last r = false
  status : ∀ c s h e r, (f.func c (.status s h)).2 = some (e, some r) →
    e.isEnd = false ∧ last r = true
  after : ∀ c r, last r = false →
    (f.resume c r).2 = none ∧ held (f.resume c r).1 ≤ held c
  finish : ∀ c r, last r = true → ∃ e, (f.resume c r).2 = some (e, none)

end ChainingFunc

namespace ChainingStream

variable {T R : Type} {f : ChainingFunc T R} {size : Nat}

/-- What holds until the base has ended: the events that came out are values,
    and they and what is held back were paid for. -/
structure Running (acc : f.Accounted size) (s : ChainingStream f.Captured)
    (log : Log R Unit (fun _ => T)) : Prop where
  values : ∀ e ∈ received log, e.isEnd = false
  paid : size * (received log).length + acc.held s.captured ≤ (arrived 0 log).length

structure Core (size : Nat) (s : ChainingStream f.Captured) (kinds : List Unit)
    (log : Log R Unit (fun _ => T)) : Prop where
  base : ∀ p, s.baseSubscription = some p → p = 0
  single : kinds.length ≤ 1
  fresh : log = [] → kinds = []
  asked : tokens 0 log ≤ size * demand log
  strict : StrictFlow log

/-- Usually nothing is left to do but what sends no event. `finishing` has one
    event left, the last. -/
inductive Mode (Rest : Type) where
  | plain
  | finishing (r : Rest)

def Mode.frames {Rest : Type} : Mode Rest → List (Point Rest)
  | .plain => []
  | .finishing r => [.rest r]

def tracked (acc : f.Accounted size) : Point f.Rest → Bool
  | .done => false
  | .rest r => acc.last r

/-- The invariant. -/
def flow (acc : f.Accounted size) : Open.Modes (component f) where
  Mode := Mode f.Rest
  tracked := tracked acc
  turn _ := .outside
  frames := Mode.frames
  Facts m s kinds log := Core size s kinds log ∧ match m with
    | .plain => ended (arrived 0 log) = false → Running acc s log
    | .finishing r => acc.last r = true ∧ ended (arrived 0 log) = true ∧
        (∀ e ∈ received log, e.isEnd = false) ∧
        (received log).length ≤ values (heard 0 log) / size + 1
  Safe _ log := StrictFlow log

section Keeps

variable {acc : f.Accounted size} {s : ChainingStream f.Captured} {kinds : List Unit}
  {log : Log R Unit (fun _ => T)}

/-- Before the base has sent its next event there is demand for one more. -/
theorem Running.lt (h : Running acc s log) (hcore : Core size s kinds log)
    (hlt : (arrived 0 log).length < tokens 0 log) : (received log).length < demand log := by
  have hpaid := h.paid
  have hasked := hcore.asked
  by_contra hge
  have hmul := Nat.mul_le_mul_left size (Nat.le_of_not_lt hge)
  omega

/-- Of the values that have arrived each of the events took `size`. -/
theorem Running.le_div (h : Running acc s log) (hopen : ∀ c ∈ arrived 0 log, c = .ok) :
    (received log).length ≤ RxCppUniq.values (heard 0 log) / size := by
  have hpaid := h.paid
  rw [arrived_eq_heard] at hopen hpaid
  have hvals : ∀ e ∈ heard 0 log, e.isEnd = false := fun e he => by
    rw [StatusOr.isEnd, hopen _ (List.mem_map_of_mem he)]
    rfl
  rw [List.length_map, ← values_eq_length _ hvals] at hpaid
  rw [Nat.le_div_iff_mul_le acc.pos, Nat.mul_comm]
  omega

/-- A call that delivers nothing leaves the core as it is, whatever becomes of
    what `func` has captured. -/
theorem Core.note (h : Core size s kinds log) (c : f.Captured) (n : Entry R Unit (fun _ => T))
    (hr : n.received = none) (ht : n.tokens 0 = 0) :
    Core size { s with captured := c } kinds (n :: log) := by
  refine ⟨h.base, h.single, fun hlog => absurd hlog (by simp), ?_, h.strict.silent n hr⟩
  rw [tokens_cons, ht, demand_cons, Nat.mul_add]
  exact Nat.le_add_right_of_le h.asked

/-- An event is delivered for which there is demand. -/
theorem Core.deliver (h : Core size s kinds log) (e : StatusOr R)
    (hlt : (received log).length < demand log) (hval : ∀ x ∈ received log, x.isEnd = false) :
    Core size s kinds (.out (.onNext e) :: log) :=
  ⟨h.base, h.single, fun hlog => absurd hlog (by simp), by simpa using h.asked,
    strictFlow_onNext log e hlt hval⟩

/-- The base sends a value. -/
theorem owes_value (v : T) (hcore : Core size s kinds log) (hrun : Running acc s log)
    (hlt : (arrived 0 log).length < tokens 0 log) :
    (flow acc).Owes [] kinds (.said 0 () (.onNext (.value v)) :: log) (onNext f s (.value v)) := by
  have hdemand := hrun.lt hcore hlt
  have hpaid := hrun.paid
  rcases acc.value s.captured v with ⟨hheld, hsent⟩
  have hcore' := hcore.note (f.func s.captured (.value v)).1 (.said 0 () (.onNext (.value v)))
    rfl rfl
  have hlen : (arrived 0 (.said 0 () (.onNext (.value v)) :: log)).length =
      (arrived 0 log).length + 1 := by simp
  refine ⟨hcore'.strict, Or.inr ⟨.plain, ?_⟩⟩
  unfold onNext
  -- What `func` sends for the value, if anything.
  rcases hfunc : f.func s.captured (.value v) with ⟨c, _ | ⟨e, k⟩⟩
  · rw [hfunc] at hheld hcore'
    have hrun' : Running acc { s with captured := c }
        (.said 0 () (.onNext (.value v)) :: log) := by
      refine ⟨by simpa using hrun.values, ?_⟩
      rw [hlen, received_cons, Entry.received, Option.toList_none, List.append_nil]
      exact Nat.le_trans (Nat.add_le_add_left hheld _) (Nat.add_le_add_right hpaid 1)
    exact ⟨rfl, rfl, hcore', fun _ => hrun'⟩
  · rw [hfunc] at hheld hcore' hsent
    rcases hsent e k rfl with ⟨hval, hspent, hlast⟩
    have hrun' : Running acc { s with captured := c }
        (.out (.onNext e) :: .said 0 () (.onNext (.value v)) :: log) := by
      refine ⟨by simpa [or_imp, forall_and, hval] using hrun.values, ?_⟩
      rw [arrived_cons, Entry.arrived, Option.toList_none, List.append_nil, hlen]
      simp only [received_cons, Entry.received, Option.toList_none, List.append_nil, Signal.event?,
        Option.toList_some, List.length_append, List.length_singleton, Nat.mul_add, Nat.mul_one]
      simp only at hspent
      omega
    have hout := hcore'.deliver e (by simpa using hdemand) (by simpa using hrun.values)
    cases k with
    | none => exact ⟨rfl, rfl, hout, fun _ => hrun'⟩
    | some r =>
        refine ⟨rfl, ?_, hout, fun _ => hrun'⟩
        simp only [send, Act.push, flow, tracked, hlast r rfl, Bool.false_eq_true, if_false]
        rfl

/-- The base sends its last event. -/
theorem owes_status (st : Status) (h : st.code ≠ .ok) (hcore : Core size s kinds log)
    (hrun : Running acc s log) (hlt : (arrived 0 log).length < tokens 0 log)
    (hopen : ∀ c ∈ arrived 0 log, c = .ok) :
    (flow acc).Owes [] kinds (.said 0 () (.onNext (.status st h)) :: log)
      (onNext f s (.status st h)) := by
  have hdemand := hrun.lt hcore hlt
  have hcore' := hcore.note (f.func s.captured (.status st h)).1
    (.said 0 () (.onNext (.status st h))) rfl rfl
  have hended : ended (arrived 0 (.said 0 () (.onNext (.status st h)) :: log)) = true := by
    simpa [StatusOr.code] using Or.inr h
  have hended' (e : StatusOr R) :
      ended (arrived 0
        (.out (.onNext e) :: .said 0 () (.onNext (.status st h)) :: log)) = true := by
    rw [arrived_cons, Entry.arrived, Option.toList_none, List.append_nil, hended]
  refine ⟨hcore'.strict, Or.inr ?_⟩
  unfold onNext
  have hfinish := acc.status s.captured st h
  rcases hfunc : f.func s.captured (.status st h) with ⟨c, _ | ⟨e, _ | r⟩⟩
  · rw [hfunc] at hcore'
    exact ⟨.plain, rfl, rfl, hcore', fun hopen => absurd (hended.symm.trans hopen) (by decide)⟩
  · rw [hfunc] at hcore'
    have hout := hcore'.deliver e (by simpa using hdemand) (by simpa using hrun.values)
    exact ⟨.plain, rfl, rfl, hout, fun hopen => absurd ((hended' e).symm.trans hopen) (by decide)⟩
  · rw [hfunc] at hcore' hfinish
    rcases hfinish e r rfl with ⟨hval, hlast⟩
    have hout := hcore'.deliver e (by simpa using hdemand) (by simpa using hrun.values)
    have hvals : ∀ x ∈ received (.out (.onNext e) ::
        .said 0 () (.onNext (.status st h)) :: log), x.isEnd = false := by
      simpa [or_imp, forall_and, hval] using hrun.values
    have hlength := hrun.le_div hopen
    refine ⟨.finishing r, rfl, ?_, hout, hlast, hended' e, hvals, ?_⟩
    · simp only [send, Act.push, flow, tracked, hlast, if_true]
      rfl
    · simpa [send] using hlength

/-- A call with which no event arrives or is delivered. -/
theorem facts_note (m : Mode f.Rest) (s' : ChainingStream f.Captured)
    (n : Entry R Unit (fun _ => T)) (hfacts : (flow acc).Facts m s kinds log)
    (hheld : acc.held s'.captured ≤ acc.held s.captured)
    (kinds' : List Unit) (hcore : Core size s' kinds' (n :: log)) (hr : n.received = none)
    (hn : n.heard 0 = none) : (flow acc).Facts m s' kinds' (n :: log) := by
  have hheard : heard 0 (n :: log) = heard 0 log := by
    rw [heard_cons, hn, Option.toList_none, List.append_nil]
  have harr : arrived 0 (n :: log) = arrived 0 log := by
    rw [arrived_eq_heard, arrived_eq_heard, hheard]
  have hrec : received (n :: log) = received log := by
    rw [received_cons, hr, Option.toList_none, List.append_nil]
  rcases hfacts with ⟨-, hmode⟩
  refine ⟨hcore, ?_⟩
  cases m with
  | plain =>
      intro hopen
      rw [harr] at hopen
      have hrun := hmode hopen
      exact ⟨hrec ▸ hrun.values, by
        rw [hrec, harr]
        exact Nat.le_trans (Nat.add_le_add_left hheld _) hrun.paid⟩
  | finishing r =>
      rcases hmode with ⟨hlast, hended, hvals, hlength⟩
      refine ⟨hlast, harr ▸ hended, hrec ▸ hvals, ?_⟩
      rw [hrec, hheard]
      exact hlength

/-- The subscriber requests. -/
theorem owes_request (m : Mode f.Rest) (n : Nat) (hfacts : (flow acc).Facts m s kinds log) :
    (flow acc).Owes m.frames kinds (.call (.request n) :: log) (request f s n) := by
  rcases hfacts with ⟨hcore, hmode⟩
  have hasked := hcore.asked
  refine ⟨hcore.strict.silent _ rfl, ?_⟩
  unfold request
  cases hbase : s.baseSubscription with
  | none => exact Or.inl ⟨_, rfl⟩
  | some p =>
      have hp := hcore.base p hbase
      subst hp
      refine Or.inr ⟨m, rfl, rfl, facts_note m s _ (facts_note m s (.call (.request n))
        ⟨hcore, hmode⟩ (Nat.le_refl _) kinds (hcore.note s.captured _ rfl rfl) rfl rfl)
        (Nat.le_refl _) kinds ?_ rfl rfl⟩
      refine ⟨hcore.base, hcore.single, fun hlog => absurd hlog (by simp), ?_,
        (hcore.strict.silent _ rfl).silent _ rfl⟩
      have hmap := acc.mapping n
      simp only [tokens_cons, Entry.tokens, if_true, Call.count, demand_cons, Entry.demand,
        Nat.add_zero, Nat.mul_add]
      omega

/-- What is left of `func` is the event that ends the stream. -/
theorem owes_finish (r : f.Rest) (hfacts : (flow acc).Facts (.finishing r) s kinds log)
    (hroom : values (heard 0 log) / size + 1 < demand log) :
    (flow acc).Owes [] kinds log (resume f s r) := by
  rcases hfacts with ⟨hcore, hlast, hended, hvals, hlength⟩
  have hlt : (received log).length < demand log := Nat.lt_of_le_of_lt hlength hroom
  refine ⟨hcore.strict, ?_⟩
  unfold resume
  by_cases hend : s.hasEnded = true
  · rw [if_pos hend]
    exact Or.inl ⟨_, rfl⟩
  · rw [if_neg hend]
    rcases acc.finish s.captured r hlast with ⟨e, hsend⟩
    rcases hres : f.resume s.captured r with ⟨c, out⟩
    rw [hres] at hsend
    simp only at hsend
    subst hsend
    refine Or.inr ⟨.plain, rfl, rfl, ?_, fun hopen => ?_⟩
    · exact (show Core size { s with captured := c } kinds log from { hcore with }).deliver e
        hlt hvals
    · simp only [send, Act.log, arrived_cons, Entry.arrived, Option.toList_none,
        List.append_nil] at hopen
      exact absurd (hended.symm.trans hopen) (by decide)

/-- What is left of `func` sends no event. -/
theorem owes_after (m : Mode f.Rest) (r : f.Rest) (hlast : acc.last r = false)
    (hfacts : (flow acc).Facts m s kinds log) :
    (flow acc).Owes m.frames kinds log (resume f s r) := by
  rcases hfacts with ⟨hcore, hmode⟩
  refine ⟨hcore.strict, ?_⟩
  unfold resume
  by_cases hend : s.hasEnded = true
  · rw [if_pos hend]
    exact Or.inl ⟨_, rfl⟩
  · rw [if_neg hend]
    rcases acc.after s.captured r hlast with ⟨hnone, hheld⟩
    rcases hres : f.resume s.captured r with ⟨c, out⟩
    rw [hres] at hnone hheld
    simp only at hnone
    subst hnone
    refine Or.inr ⟨m, rfl, rfl, { hcore with }, ?_⟩
    cases m with
    | plain =>
        intro hopen
        have hrun := hmode hopen
        exact ⟨hrun.values, Nat.le_trans (Nat.add_le_add_left hheld _) hrun.paid⟩
    | finishing r => exact hmode

end Keeps

/-- The base is the only stream a `ChainingStream` subscribes to. -/
theorem Core.part {s : ChainingStream f.Captured} {kinds : List Unit}
    {log : Log R Unit (fun _ => T)} (h : Core size s kinds log) (p : Nat) (i : Unit)
    (kind : kinds[p]? = some i) : p = 0 ∧ log ≠ [] := by
  have hlt := (List.getElem?_eq_some_iff.mp kind).1
  have hsingle := h.single
  refine ⟨by omega, fun hlog => ?_⟩
  rw [h.fresh hlog] at hlt
  exact absurd hlt (Nat.not_lt_zero _)

/-- With demand left for the second of two events the flow control is
    strict. -/
theorem strictly (acc : f.Accounted size)
    (allow : Open (component f) → Move Call Bool Unit (fun _ => Signal T) → Prop)
    (hle : ∀ st m, allow st m → RequestRules st m)
    (hroom : ∀ st who r rest, allow st .reply → st.stack = (who, .rest r) :: rest →
      acc.last r = true → values (heard 0 st.log) / size + 1 < demand st.log)
    (st : Open (component f)) (h : Open.Reach subscriptionCheck allow st) :
    StrictFlow st.log := by
  have hholds : (flow acc).Holds st := by
    refine Open.Modes.holds_reach _ _ _ ?_ ?_ ?_ ?_ ?_ ?_ st h
    · refine ⟨.plain, rfl, rfl, ⟨?_, Nat.zero_le _, fun _ => rfl, Nat.zero_le _, ?_⟩, fun _ => ?_⟩
      · intro p hp
        exact absurd hp (by simp [Open.init])
      · exact ⟨Nat.zero_le _, fun c hc => absurd hc (by simp [Open.init])⟩
      · refine ⟨fun e he => absurd he (by simp [Open.init]), ?_⟩
        simp [Open.init, acc.start]
    · intro st m c hm _ hok
      have ok := hle st _ hok
      have hcore := hm.facts.1
      cases c with
      | subscribe =>
          have hlog : st.log = [] := List.isEmpty_iff.mp ok.1
          have hkinds := hcore.fresh hlog
          have hnote := facts_note m st.state (.call .subscribe) hm.facts (Nat.le_refl _) st.kinds
            (hcore.note st.state.captured _ rfl rfl) rfl rfl
          refine ⟨hnote.1.strict, Or.inr ⟨m, rfl, rfl, facts_note m st.state _ hnote
            (Nat.le_refl _) _ ⟨hcore.base, ?_, fun hlog => absurd hlog (by simp), ?_,
              hnote.1.strict.silent _ rfl⟩ rfl rfl⟩⟩
          · rw [Act.kinds, hkinds]
            exact Nat.le_refl _
          · simpa using hcore.asked
      | request n => exact owes_request m n hm.facts
      | cancel => exact absurd rfl ok.2
    · intro st m p i o hm _ hok kind
      have ok := hle st _ hok
      have hcore := hm.facts.1
      rcases hcore.part p i kind with ⟨rfl, -⟩
      cases o with
      | onSubscribe =>
          have hnote := facts_note m st.state (.said 0 () .onSubscribe) hm.facts (Nat.le_refl _)
            st.kinds (hcore.note st.state.captured _ rfl rfl) rfl rfl
          refine ⟨hnote.1.strict, Or.inr ⟨m, rfl, rfl, facts_note m
            { st.state with baseSubscription := some 0 } (.out .onSubscribe) hnote (Nat.le_refl _)
            st.kinds ?_ rfl rfl⟩⟩
          refine ⟨fun p hp => (Option.some.inj hp).symm, hcore.single,
            fun hlog => absurd hlog (by simp), by simpa using hcore.asked,
            hnote.1.strict.silent _ rfl⟩
      | onNext e =>
          rcases ok with ⟨-, -, hstrict⟩
          rw [strict_append] at hstrict
          have hopen := (ended_eq_false _).mpr hstrict.2
          have hmode := hm.facts.2
          cases m with
          | finishing r => exact absurd (hopen.symm.trans hmode.2.1) (by decide)
          | plain =>
              cases e with
              | value v => exact owes_value v hcore (hmode hopen) hstrict.1
              | status s hs => exact owes_status s hs hcore (hmode hopen) hstrict.1 hstrict.2
      | destroy =>
          have hnote := facts_note m st.state (.said 0 () .destroy) hm.facts (Nat.le_refl _)
            st.kinds (hcore.note st.state.captured _ rfl rfl) rfl rfl
          refine ⟨hnote.1.strict, Or.inr ⟨m, rfl, rfl, facts_note m
            { st.state with hasEnded := true } (.out .destroy) hnote (Nat.le_refl _) st.kinds ?_
            rfl rfl⟩⟩
          exact { hnote.1.note st.state.captured (.out .destroy) rfl rfl with }
    · intro st m k hm _ _ _ hk
      cases k with
      | done => exact ⟨hm.facts.1.strict, Or.inr ⟨m, rfl, rfl, hm.facts⟩⟩
      | rest r => exact owes_after m r hk hm.facts
    · intro st m who k rest frames hm _ ok top _ hframes
      cases m with
      | plain => exact absurd hframes (by simp [flow, Mode.frames])
      | finishing r =>
          simp only [flow, Mode.frames, List.cons.injEq] at hframes
          rcases hframes with ⟨rfl, rfl⟩
          exact owes_finish r hm.facts (hroom st who r rest ok top hm.facts.2.1)
    · intro st m k hm turn _
      exact absurd (hm.turn.symm.trans turn) (by simp [flow])
  rcases hholds with ⟨m, hm⟩ | ⟨-, hsafe⟩
  · exact hm.facts.1.strict
  · exact hsafe

end ChainingStream

namespace ChainingFunc

variable {T R : Type}

/-- `Map` with a function that returns only values. -/
def accounted_map (func : T → R) : (map fun v => .value (func v)).Accounted 1 where
  held _ := 0
  last r := nomatch r
  pos := Nat.le_refl 1
  mapping n := Nat.le_of_eq (Nat.one_mul n).symm
  start := rfl
  value c v := by
    refine ⟨Nat.zero_le _, fun e k h => ?_⟩
    simp only [map, Option.some.injEq] at h
    rcases h with ⟨rfl, rfl⟩
    exact ⟨rfl, Nat.le_refl _, fun r _ => nomatch r⟩
  status _ _ _ _ r := nomatch r
  after _ r := nomatch r
  finish _ r := nomatch r

/-- There is nothing left of the function of `Map` after it has called the
    subscriber, so `Map` needs no more than its partners always keep. -/
theorem strictly_map (func : T → R)
    (st : Open (ChainingStream.component (map fun v => .value (func v))))
    (h : Open.Reach subscriptionCheck RequestRules st) : StrictFlow st.log :=
  ChainingStream.strictly (accounted_map func) RequestRules (fun _ _ hok => hok)
    (fun _ _ r => nomatch r) st h

/-- What is left of `func` of `Buffer` is the event that ends the stream. -/
def BufferRest.isLast : BufferRest → Bool
  | .clear => false
  | .finish _ _ => true

/-- `Buffer` holds back what is in its buffer. -/
def accounted_buffer (size : Nat) (hsize : 1 ≤ size) :
    (buffer size : ChainingFunc T (List T)).Accounted size where
  held := List.length
  last := BufferRest.isLast
  pos := hsize
  mapping n := Nat.mod_le _ _
  start := rfl
  value (c : List T) v := by
    simp only [buffer]
    by_cases hfull : (c ++ [v]).length = size
    · rw [if_pos hfull]
      refine ⟨Nat.zero_le _, fun e k h => ?_⟩
      simp only [Option.some.injEq, Prod.mk.injEq] at h
      rcases h with ⟨rfl, rfl⟩
      refine ⟨rfl, ?_, fun r hr => ?_⟩
      · simp only [← hfull, List.length_append, List.length_singleton, List.length_nil,
          Nat.zero_add, Nat.le_refl]
      · rw [← Option.some.inj hr]
        rfl
    · rw [if_neg hfull]
      exact ⟨Nat.le_of_eq (by simp), fun e k h => absurd h (by simp)⟩
  status c s hs e r h := by
    simp only [buffer] at h
    by_cases hflush : s.code = .outOfRange ∧ 0 < c.length
    · rw [if_pos hflush] at h
      simp only [Option.some.injEq, Prod.mk.injEq] at h
      rcases h with ⟨rfl, hr⟩
      rw [← Option.some.inj hr]
      exact ⟨rfl, rfl⟩
    · rw [if_neg hflush] at h
      exact absurd h (by simp)
  after c r hr := by
    cases r with
    | clear => exact ⟨rfl, Nat.zero_le _⟩
    | finish s hs => exact absurd hr (by simp [BufferRest.isLast])
  finish c r hr := by
    cases r with
    | clear => exact absurd hr (by simp [BufferRest.isLast])
    | finish s hs => exact ⟨_, rfl⟩

/-- When the rest of the buffer has been delivered and the end is to follow,
    there is demand for it: for one event for every `size` values of the base,
    for the rest and for the end. -/
def HasRoom (size : Nat)
    (st : Open (ChainingStream.component (buffer size : ChainingFunc T (List T)))) :
    ChainingStream.Point (buffer size : ChainingFunc T (List T)).Rest → Prop
  | .done => True
  | .rest .clear => True
  | .rest (.finish _ _) => values (heard 0 st.log) / size + 1 < demand st.log

instance (size : Nat)
    (st : Open (ChainingStream.component (buffer size : ChainingFunc T (List T))))
    (k : ChainingStream.Point (buffer size : ChainingFunc T (List T)).Rest) :
    Decidable (HasRoom size st k) :=
  match k with
  | .done => inferInstanceAs (Decidable True)
  | .rest .clear => inferInstanceAs (Decidable True)
  | .rest (.finish _ _) => inferInstanceAs (Decidable (_ < _))

/-- The rules for the partners of `Buffer`: there is room for the end of the
    stream when the subscriber's `OnNext` for the rest of the buffer
    returns. -/
def BufferRules (size : Nat)
    (st : Open (ChainingStream.component (buffer size : ChainingFunc T (List T)))) :
    Move Call Bool Unit (fun _ => Signal T) → Prop
  | .call c => RequestRules st (.call c)
  | .said p i s => RequestRules st (.said p i s)
  | .reply => ∀ top ∈ st.stack.head?, HasRoom size st top.2
  | .view _ _ => True
  | .run => True

instance (size : Nat)
    (st : Open (ChainingStream.component (buffer size : ChainingFunc T (List T))))
    (m : Move Call Bool Unit (fun _ => Signal T)) : Decidable (BufferRules size st m) :=
  match m with
  | .call c => inferInstanceAs (Decidable (RequestRules st (.call c)))
  | .said p i s => inferInstanceAs (Decidable (RequestRules st (.said p i s)))
  | .reply => inferInstanceAs (Decidable (∀ top ∈ st.stack.head?, HasRoom size st top.2))
  | .view _ _ => inferInstanceAs (Decidable True)
  | .run => inferInstanceAs (Decidable True)

/-- With room for the end of the stream `Buffer` is strict. -/
theorem strictly_buffer (size : Nat) (hsize : 1 ≤ size)
    (st : Open (ChainingStream.component (buffer size : ChainingFunc T (List T))))
    (h : Open.Reach subscriptionCheck (BufferRules size) st) : StrictFlow st.log := by
  refine ChainingStream.strictly (accounted_buffer size hsize) _ (fun st m hok => ?_) ?_ st h
  · cases m with
    | call c => exact hok
    | said p i s => exact hok
    | reply => trivial
    | view p v => trivial
    | run => trivial
  · intro st who r rest hok top hlast
    have hroom := hok (who, .rest r) (by rw [top]; rfl)
    cases r with
    | clear => exact absurd hlast (by simp [accounted_buffer, BufferRest.isLast])
    | finish s hs => exact hroom

/-- One token for a buffer of two, and a base with a single value. -/
def shortMoves : List (Move Call Bool Unit (fun _ => Signal Nat)) :=
  [.call .subscribe, .said 0 () .onSubscribe, .call (.request 1),
    .said 0 () (.onNext (.value 1)), .said 0 () (.onNext .done), .reply]

/-- Without demand for it the end of the stream is sent all the same. -/
theorem buffer_overruns :
    ∃ st : Open (ChainingStream.component (buffer 2 : ChainingFunc Nat (List Nat))),
      Open.Reach subscriptionCheck RequestRules st ∧ demand st.log = 1 ∧
        received st.log = [.value [1], .done] ∧ ¬ StrictFlow st.log := by
  rcases Open.exists_reach_of_play subscriptionCheck RequestRules shortMoves
    (fun st : Open (ChainingStream.component (buffer 2 : ChainingFunc Nat (List Nat))) =>
      demand st.log == 1 && received st.log == [.value [1], .done])
    (by decide +kernel) with ⟨st, hst, htest⟩
  rw [Bool.and_eq_true, beq_iff_eq, beq_iff_eq] at htest
  refine ⟨st, hst, htest.1, htest.2, fun hflow => ?_⟩
  have hlen := hflow.1
  rw [htest.1, htest.2] at hlen
  exact absurd hlen (by decide)

end ChainingFunc

end RxCppUniq
