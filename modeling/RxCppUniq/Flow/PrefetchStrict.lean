import RxCppUniq.Flow.Metered
import RxCppUniq.Reactive.Prefetch
import RxCppUniq.Theory.Frames

/-!
# Strict Flow Control in Prefetch

What has been delivered and what is in the buffer is what the upstream has
sent, and what was asked of the upstream has room in the buffer, so the branch
for an overflow is never taken and no event is ever replaced. As many events
come out as tokens were removed from the balance.

## Main definitions

* `PrefetchingStream.Buffered`: The invariant.

## Theorems

* `PrefetchingStream.buffered_reach`: The invariant holds of every reachable
  state without a failed check.
* `PrefetchingStream.limited`: As far as balances go the flow control is strict.
-/

namespace RxCppUniq

open Theory

namespace PrefetchingStream

variable {T : Type} {publisher : PrefetchingPublisher}

/-- What the buffer and the balances are, in terms of the calls. -/
structure Buffered (publisher : PrefetchingPublisher) (s : PrefetchingStream T)
    (kinds : List Unit) (log : Log T Unit (fun _ => T)) : Prop where
  single : kinds.length ≤ 1
  fresh : log = [] → kinds = []
  upstream : ∀ p, s.upstreamSubscription = some p → p = 0
  balance : Metered s.requestBalance (received log).length log
  order : received log ++ s.buffer = heard 0 log
  room : s.buffer.length + tokens 0 log ≤ publisher.bufferSize + (heard 0 log).length
  owed : s.upstreamRequestBalance.balance = kMax ∨
    s.upstreamRequestBalance.balance + (heard 0 log).length = tokens 0 log
  orderly : ∀ e ∈ (heard 0 log).dropLast, e.isEnd = false

section Keeps

variable {s : PrefetchingStream T} {kinds : List Unit} {log before : Log T Unit (fun _ => T)}

/-- What has been delivered before the last event are values. -/
theorem Buffered.orderly_received (h : Buffered publisher s kinds log) :
    ∀ e ∈ (received log).dropLast, e.isEnd = false := by
  intro e he
  refine h.orderly e ?_
  rw [← h.order]
  cases hbuf : s.buffer with
  | nil => rwa [List.append_nil]
  | cons b buffer =>
      rw [List.dropLast_append_of_ne_nil (List.cons_ne_nil _ _)]
      exact List.mem_append_left _ (List.dropLast_subset _ he)

theorem Buffered.strict (h : Buffered publisher s kinds log) : LimitedFlow log := by
  refine ⟨fun hno => ?_, h.orderly_received⟩
  have hbal := (h.balance hno).2
  omega

/-- A call that brings nothing, delivers nothing and asks for nothing, and code
    that touches neither the buffer nor the balances. -/
structure Idle (n : Entry T Unit (fun _ => T)) : Prop where
  demand : n.demand = 0
  tokens : n.tokens 0 = 0
  heard : n.heard 0 = none
  received : n.received = none

theorem Buffered.idle (h : Buffered publisher s kinds log) (s' : PrefetchingStream T)
    (n : Entry T Unit (fun _ => T)) (hn : Idle n)
    (hu : ∀ p, s'.upstreamSubscription = some p → p = 0) (hbuf : s'.buffer = s.buffer)
    (hreq : s'.requestBalance = s.requestBalance)
    (hup : s'.upstreamRequestBalance = s.upstreamRequestBalance) :
    Buffered publisher s' kinds (n :: log) := by
  have hrec : received (n :: log) = received log := by
    rw [received_cons, hn.received, Option.toList_none, List.append_nil]
  have hheard : heard 0 (n :: log) = heard 0 log := by
    rw [heard_cons, hn.heard, Option.toList_none, List.append_nil]
  have htok : tokens 0 (n :: log) = tokens 0 log := by rw [tokens_cons, hn.tokens, Nat.add_zero]
  refine ⟨h.single, fun hlog => absurd hlog (by simp), hu, ?_, ?_, ?_, ?_, ?_⟩
  · rw [hreq, hrec]; exact h.balance.quiet n hn.demand
  · rw [hrec, hbuf, hheard]; exact h.order
  · rw [hbuf, htok, hheard]; exact h.room
  · rw [hup, hheard, htok]; exact h.owed
  · rw [hheard]; exact h.orderly

/-- The invariant, in which no point relies on anything. -/
def flow (publisher : PrefetchingPublisher) : Open.Spec (component T publisher) where
  Core := Buffered publisher
  Frame _ _ _ _ := True
  Safe _ log := LimitedFlow log

theorem keeps_of_buffered (r : Result T) (hsafe : LimitedFlow log)
    (h : (∃ msg, r.2 = .fail msg) ∨ Buffered publisher r.1 (r.2.kinds kinds) (r.2.log kinds log)) :
    (flow publisher).Keeps s kinds before log r :=
  ⟨hsafe, h, fun _ _ => trivial, fun _ _ _ => trivial⟩

/-- `MaybeDeliver` up to its loop changes only the flag. -/
theorem keeps_maybeDeliver {t : PrefetchingStream T} (h : Buffered publisher t kinds log) :
    (flow publisher).Keeps s kinds before log (maybeDeliver t) := by
  refine keeps_of_buffered _ h.strict (Or.inr ?_)
  unfold maybeDeliver
  by_cases hdel : t.delivering = true
  · rw [if_pos hdel]
    exact h
  · rw [if_neg hdel]
    exact { h with }

theorem keeps_release {t : PrefetchingStream T} (h : Buffered publisher t kinds log) :
    (flow publisher).Keeps s kinds before log (release t) := by
  refine keeps_of_buffered _ h.strict (Or.inr ?_)
  unfold release
  by_cases hheld : (t.selfLock || t.wrapped || t.created || t.hasEnded) = true
  · rw [if_pos hheld]
    exact h
  · rw [if_neg hheld]
    exact h.idle { t with hasEnded := true } (.out .destroy) ⟨rfl, rfl, rfl, rfl⟩ h.upstream rfl
      rfl rfl

/-- One round of the loop delivers what is first in the buffer. -/
theorem keeps_deliver (h : Buffered publisher s kinds log) :
    (flow publisher).Keeps s kinds before log (deliver s) := by
  refine keeps_of_buffered _ h.strict ?_
  unfold deliver
  have hroom := h.room
  have horder := h.order
  have hback : Buffered publisher { s with delivering := false } kinds log := { h with }
  cases hbuf : s.buffer with
  | nil =>
      rw [hbuf] at hback
      exact Or.inr hback
  | cons e buffer =>
      rw [hbuf] at hroom horder
      simp only
      by_cases hreq : s.requestBalance.hasRequests = true
      · rw [if_pos hreq]
        cases hrem : s.requestBalance.remove 1 with
        | none => exact Or.inl ⟨_, rfl⟩
        | some b =>
            -- one event was asked for, and it leaves the buffer and the balance
            have hbal := (h.balance.remove 1 hrem).quiet (.out (.onNext e)) rfl
            refine Or.inr ⟨h.single, fun hlog => absurd hlog (by simp), h.upstream, ?_, ?_, ?_, ?_,
              ?_⟩
            · simpa using hbal
            · simpa using horder
            · simp only [List.length_cons] at hroom
              simp
              omega
            · simpa using h.owed
            · simpa using h.orderly
      · rw [if_neg hreq]
        rw [hbuf] at hback
        exact Or.inr hback

/-- What is asked of the upstream has room in the buffer. -/
theorem keeps_maybeFill (h : Buffered publisher s kinds log) (views : Nat → Bool) (k : Point) :
    (flow publisher).Keeps s kinds before log (s.maybeFill publisher views k) := by
  refine keeps_of_buffered _ h.strict ?_
  have hroom := h.room
  have hle := publisher.fits
  unfold maybeFill
  cases hup : s.upstreamSubscription with
  | none => exact Or.inl ⟨_, rfl⟩
  | some p =>
      have hp := h.upstream p hup
      subst hp
      have hback : Buffered publisher s kinds log := h
      simp only
      by_cases hview : views 0 = true
      · rw [if_pos hview]
        exact Or.inr hback
      · rw [if_neg hview]
        by_cases hfull : publisher.refill < s.buffer.length
        · rw [if_pos hfull]
          exact Or.inr hback
        · rw [if_neg hfull]
          by_cases hasked : s.toFill publisher ≤ s.upstreamRequestBalance.balance
          · rw [if_pos hasked]
            exact Or.inr hback
          · rw [if_neg hasked]
            have howed := h.owed
            unfold toFill at hasked
            -- what is owed and what is asked for now make up what is missing
            have hadd : (s.upstreamRequestBalance.add
                (s.toFill publisher - s.upstreamRequestBalance.balance)).balance =
                s.toFill publisher := by
              rw [RequestBalance.balance_add, toFill]
              omega
            refine Or.inr ⟨h.single, fun hlog => absurd hlog (by simp),
              fun q hq => (Option.some.inj hq).symm, ?_, ?_, ?_, ?_, ?_⟩
            · simpa using h.balance.quiet (.ask 0 (.request _)) rfl
            · simpa using h.order
            · simp only [Act.log, tokens_cons, Entry.tokens, if_true, Call.count, heard_cons,
                Entry.heard, Option.toList_none, List.append_nil, toFill]
              omega
            · simp only [Act.log, tokens_cons, Entry.tokens, if_true, Call.count, heard_cons,
                Entry.heard, Option.toList_none, List.append_nil, hadd]
              unfold toFill
              omega
            · simpa using h.orderly

/-- An event arrives, for which there is room. -/
theorem keeps_onNext (h : Buffered publisher s kinds log) (e : StatusOr T)
    (hlt : (heard 0 log).length < tokens 0 log) (hopen : ∀ x ∈ heard 0 log, x.isEnd = false) :
    (flow publisher).Keeps s kinds before (.said 0 () (.onNext e) :: log)
      (s.onNext publisher e) := by
  have hroom := h.room
  have howed := h.owed
  have hstrict := h.strict.silent (.said 0 () (.onNext e)) rfl
  unfold onNext
  rw [if_neg (by omega)]
  cases hrem : s.upstreamRequestBalance.remove 1 with
  | none => exact keeps_of_buffered _ hstrict (Or.inl ⟨_, rfl⟩)
  | some b =>
      refine keeps_maybeDeliver ⟨h.single, fun hlog => absurd hlog (by simp), h.upstream, ?_, ?_,
        ?_, ?_, ?_⟩
      · simpa using h.balance.quiet (.said 0 () (.onNext e)) rfl
      · have horder := h.order
        simp only [received_cons, Entry.received, Option.toList_none, List.append_nil, heard_cons,
          Entry.heard, if_true, Signal.event?, Option.toList_some, ← horder, List.append_assoc]
      · simp
        omega
      · by_cases hmax : s.upstreamRequestBalance.balance = kMax
        · rw [RequestBalance.remove_kMax _ _ hmax, Option.some.injEq] at hrem
          exact Or.inl (hrem ▸ hmax)
        · have hle := s.upstreamRequestBalance.le_kMax
          have hsub := RequestBalance.remove_of_lt _ _ _ (by omega) hrem
          right
          simp
          omega
      · simpa using hopen

theorem keeps_said (h : Buffered publisher s kinds log) (p : Nat) (i : Unit) (o : Signal T)
    (kind : kinds[p]? = some i) (hok : Protocol.stream p log o) (views : Nat → Bool) :
    (flow publisher).Keeps s kinds before (.said p i o :: log)
      ((component T publisher).said views s p i o) := by
  have hp : p = 0 := by
    have hlt := (List.getElem?_eq_some_iff.mp kind).1
    have hsingle := h.single
    omega
  subst hp
  cases o with
  | onSubscribe =>
      have hidle := h.idle s (.said 0 i .onSubscribe) ⟨rfl, rfl, rfl, rfl⟩ h.upstream rfl rfl rfl
      refine keeps_of_buffered _ hidle.strict ?_
      simp only [onSubscribe]
      by_cases hagain : s.upstreamSubscription.isSome = true
      · rw [if_pos hagain]
        exact Or.inl ⟨_, rfl⟩
      · rw [if_neg hagain]
        exact Or.inr (hidle.idle _ (.out .onSubscribe) ⟨rfl, rfl, rfl, rfl⟩
          (fun q hq => (Option.some.inj hq).symm) rfl rfl rfl)
  | onNext e =>
      rcases hok with ⟨-, -, hstrict⟩
      rw [strict_append, arrived_eq_heard, List.length_map] at hstrict
      refine keeps_onNext h e hstrict.1 fun x hx => ?_
      rw [StatusOr.isEnd, hstrict.2 _ (List.mem_map_of_mem hx)]
      rfl
  | destroy =>
      exact keeps_release (h.idle { s with wrapped := false } (.said 0 i .destroy)
        ⟨rfl, rfl, rfl, rfl⟩ h.upstream rfl rfl rfl)

end Keeps

theorem buffered_init : Buffered publisher ({} : PrefetchingStream T) [] [] :=
  ⟨Nat.zero_le _, fun _ => rfl, fun p hp => absurd hp (by simp),
    Metered.nil, rfl, Nat.zero_le _, Or.inr rfl, fun e he => absurd he (by simp)⟩

/-- The subscriber subscribes or requests. -/
theorem keeps_call {s : PrefetchingStream T} {kinds : List Unit}
    {log before : Log T Unit (fun _ => T)} (h : Buffered publisher s kinds log) (c : Call)
    (hok : Protocol.subscriber log c) (hc : c ≠ .cancel) (views : Nat → Bool) :
    (flow publisher).Keeps s kinds before (.call c :: log)
      ((component T publisher).call views s c) := by
  cases c with
  | subscribe =>
      have hlog : log = [] := List.isEmpty_iff.mp hok
      have hidle := h.idle s (.call .subscribe) ⟨rfl, rfl, rfl, rfl⟩ h.upstream rfl rfl rfl
      refine keeps_of_buffered _ hidle.strict ?_
      simp only [subscribe]
      by_cases hsize : publisher.bufferSize = 0
      · rw [if_pos hsize]
        exact Or.inl ⟨_, rfl⟩
      · rw [if_neg hsize]
        have hmake := hidle.idle { s with created := true, selfLock := true, wrapped := true }
          (.ask kinds.length .subscribe) ⟨rfl, by simp, rfl, rfl⟩ h.upstream rfl rfl rfl
        refine Or.inr { hmake with single := ?_, fresh := fun hno => absurd hno (by simp) }
        rw [h.fresh hlog]
        exact Nat.le_refl _
  -- the request adds to the demand, and the loop is set going
  | request n =>
      simp only [component, request]
      refine keeps_maybeDeliver
        ⟨h.single, fun hlog => absurd hlog (by simp), h.upstream, ?_, ?_, ?_, ?_, ?_⟩
      · simpa using h.balance.request (values_le_length _) n
      · simpa using h.order
      · simpa using h.room
      · simpa using h.owed
      · simpa using h.orderly
  | cancel => exact absurd rfl hc

/-- The invariant holds of every reachable state, until a check fails. -/
theorem buffered_reach (st : Open (component T publisher))
    (h : Open.Reach subscriptionCheck RequestRules st) : (flow publisher).Holds st := by
  refine Open.Spec.holds_reach _ _ _ buffered_init ?_ ?_ ?_ st h
  · intro st c _ hok _ hc
    exact keeps_call hc c hok.1 hok.2 st.views
  · intro st p i o _ hok kind hc
    exact keeps_said hc p i o kind hok st.views
  · intro st k _ _ hc _
    cases k with
    | done => exact keeps_of_buffered _ hc.strict (Or.inr hc)
    | subscribed => exact keeps_release (t := { st.state with created := false }) { hc with }
    | confirmed =>
        simp only [component]
        by_cases hend : st.state.hasEnded = true
        · rw [if_pos hend]
          exact keeps_of_buffered _ hc.strict (Or.inl ⟨_, rfl⟩)
        · rw [if_neg hend]
          exact keeps_maybeFill hc st.views .done
    | deliver => exact keeps_deliver hc
    | delivered isEnd =>
        simp only [component, delivered]
        by_cases hend : st.state.hasEnded = true
        · rw [if_pos hend]
          exact keeps_of_buffered _ hc.strict (Or.inl ⟨_, rfl⟩)
        · rw [if_neg hend]
          by_cases hlast : isEnd = true
          · rw [if_pos hlast]
            exact keeps_release { hc with }
          · rw [if_neg hlast]
            exact keeps_maybeFill hc st.views .filled
    | filled =>
        refine keeps_of_buffered _ hc.strict ?_
        simp only [component, filled]
        by_cases hend : st.state.hasEnded = true
        · rw [if_pos hend]
          exact Or.inl ⟨_, rfl⟩
        · rw [if_neg hend]
          by_cases hempty : st.state.buffer.isEmpty = true
          · rw [if_pos hempty]
            exact Or.inr { hc with }
          · rw [if_neg hempty]
            exact Or.inr hc

/-- As far as balances go the flow control is strict. -/
theorem limited (st : Open (component T publisher))
    (h : Open.Reach subscriptionCheck RequestRules st) : LimitedFlow st.log := by
  rcases buffered_reach st h with ⟨-, hc, -⟩ | ⟨-, hsafe⟩
  · exact hc.strict
  · exact hsafe

end PrefetchingStream

end RxCppUniq
