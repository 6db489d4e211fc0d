import RxCppUniq.Flow.MergeOrigins

/-!
# The Books of Merge

`MergeStream` next to upstreams with strict flow control that answer in any
order, and to a subscriber that requests what it likes. Every event an
upstream has sent is with its subscriber or has been taken from there, and the
values that were taken have been delivered, in the order of that upstream.

The invariant goes by the mode of the loop in `MaybeDeliver`, which says
whether a value has been taken and is being delivered. It comes in two parts,
what is known of each upstream and what the delivered events add up to.

## Main definitions

* `MergeStream.Side`: What is known of one upstream.
* `MergeStream.Books`: The invariant.

## Theorems

* `MergeStream.books_reach`: The invariant holds of every reachable state.
-/

namespace RxCppUniq

open Theory

namespace MergeStream

variable {ι : Type} {T : ι → Type}

section Invariant

/-- A value that was taken and is being delivered. -/
def Loop.inHand {V : Type} : Loop V → List V
  | .quiet => []
  | .looping => []
  | .consuming event => valuesOf [event]
  | .delivered => []
  | .past _ => []

/-- The value in hand, if it was taken from the upstream at position `p`. -/
def inHand (p : Nat) (l : Loop (Sigma T)) (log : Log (Sigma T) ι T) : List (Sigma T) :=
  if (origins log).getLast? = some p then l.inHand else []

theorem inHand_empty (p : Nat) (l : Loop (Sigma T)) (log : Log (Sigma T) ι T)
    (h : l.inHand = []) : inHand p l log = [] := by
  rw [inHand, h, ite_self]

/-- What is known of the upstream at position `p` and its subscriber `u`: each
    of its values was delivered, is in hand, or is with the subscriber. -/
structure Side (l : Loop (Sigma T)) (log : Log (Sigma T) ι T) (p : Nat)
    (u : MergeUpstreamSubscriber (Sigma T)) : Prop where
  subscription : u.upstreamSubscription = if confirmed p log then some p else none
  progress : Progress log p u
  held : ∀ e, u.next = some e → e ∈ sent p log
  account : errorSent log = false →
    cameFrom p log ++ inHand p l log ++ valuesOf u.next.toList = valuesOf (sent p log)
  passed : u.next = none → brokeOff (arrived p log) = true → errorSent log = true
  dropped : l.runs = true → u.attached = false → ended (arrived p log) = true ∧ u.next = none

/-- The `Done` of every upstream has been taken. -/
def AllDone (publisher : MergePublisher ι) (s : MergeStream (Sigma T))
    (log : Log (Sigma T) ι T) : Prop :=
  ∀ p, p < publisher.upstream.length → ∃ u, s.upstreamSubscribers[p]? = some u ∧ u.next = none ∧
    ∃ e ∈ sent p log, e.isDone = true

/-- The error has been taken, and no other one. -/
def OnlyError (s : MergeStream (Sigma T)) (log : Log (Sigma T) ι T) (e : StatusOr (Sigma T)) :
    Prop :=
  ∃ p u, s.upstreamSubscribers[p]? = some u ∧ u.next = none ∧ e ∈ sent p log ∧
    ∀ q v, s.upstreamSubscribers[q]? = some v → v.next = none →
      brokeOff (arrived q log) = true → q = p

/-- The invariant. -/
structure Books (publisher : MergePublisher ι) (l : Loop (Sigma T)) (s : MergeStream (Sigma T))
    (kinds : List ι) (log : Log (Sigma T) ι T) : Prop where
  size : s.upstreamSubscribers.length = kinds.length
  room : kinds.length ≤ publisher.upstream.length
  full : subscribed log = true → kinds.length = publisher.upstream.length
  early : subscribed log = false → s.requestBalance.balance = 0
  flag : s.delivering = l.delivering
  side : ∀ p u, s.upstreamSubscribers[p]? = some u → Side l log p u
  later : ∀ p, kinds.length ≤ p → Silent log p
  count : (origins log).length = (valuesOf (received log)).length + l.inHand.length
  hand : ∀ e, l = .consuming e → e.isEnd = false
  limit : unlimited log = false →
    s.requestBalance.balance < kMax ∧ s.requestBalance.balance + values (received log) = demand log
  running : l.runs = true → ∀ e ∈ received log, e.isEnd = false
  last : ∀ e ∈ (received log).dropLast, e.isEnd = false
  finished : ∀ e ∈ received log, e.isDone = true → AllDone publisher s log
  failed : ∀ e ∈ received log, e.isError = true → OnlyError s log e
  cancelled : ∀ i, l = .past (.cancelled i) → confirmed i log = true

/-- The invariant by the mode of the loop. -/
def books (publisher : MergePublisher ι) : Open.Modes (component T publisher) where
  Mode := Loop (Sigma T)
  tracked := Point.waits
  turn := Loop.turn
  frames := Loop.frames
  Facts l s kinds log := Books publisher l s kinds log
  Safe _ _ := True

end Invariant

section Notes

variable {publisher : MergePublisher ι} {l l' : Loop (Sigma T)} {s t : MergeStream (Sigma T)}
  {kinds : List ι} {log log' : Log (Sigma T) ι T} {p : Nat}
  {u u' : MergeUpstreamSubscriber (Sigma T)}

/-- The logs say the same of what the upstream at position `q` was asked and
    has sent. -/
structure Alike (q : Nat) (log log' : Log (Sigma T) ι T) : Prop where
  confirmed : confirmed q log' = confirmed q log
  tokens : tokens q log' = tokens q log
  sent : sent q log' = sent q log
  cancels : RxCppUniq.confirmed q log = false → cancels q log' = cancels q log

theorem Alike.arrived {q : Nat} (h : Alike q log log') : arrived q log' = arrived q log := by
  rw [arrived_eq_sent, arrived_eq_sent, h.sent]

/-- An entry that neither asks the upstream nor comes from it. -/
theorem alike_cons (q : Nat) (n : Entry (Sigma T) ι T) (hc : n.confirms q = false)
    (ht : n.tokens q = 0) (hs : sentIn q n = none)
    (hx : confirmed q log = false → Entry.cancels q n = 0) : Alike q log (n :: log) := by
  refine ⟨?_, ?_, ?_, fun hconf => ?_⟩
  · rw [confirmed_cons, hc, Bool.false_or]
  · rw [tokens_cons, ht, Nat.add_zero]
  · rw [sent_cons, hs, Option.toList_none, List.append_nil]
  · rw [cancels_cons, hx hconf, Nat.add_zero]

theorem Alike.of_same {q : Nat} (h : Same q log log') : Alike q log log' :=
  ⟨h.confirmed, h.tokens, h.sent, fun _ => h.cancels⟩

theorem Progress.alike (h : Progress log p u) (ha : Alike p log log') : Progress log' p u := by
  have harr := ha.arrived
  cases h with
  | waiting hc hn ht hheard hatt hx =>
      exact .waiting (ha.confirmed.trans hc) hn (ha.tokens.trans ht) (harr.trans hheard) hatt
        ((ha.cancels hc).trans hx)
  | asked hc hn ho ht =>
      exact .asked (ha.confirmed.trans hc) hn (by rw [harr]; exact ho)
        (by rw [ha.tokens, harr]; exact ht)
  | holding e hc hn ho ht =>
      exact .holding e (ha.confirmed.trans hc) hn (by rw [harr]; exact ho)
        (by rw [ha.tokens, harr]; exact ht)
  | spent hc hn ho ht hd =>
      exact .spent (ha.confirmed.trans hc) hn (by rw [harr]; exact ho)
        (by rw [ha.tokens, harr]; exact ht) hd

/-- How far an upstream is does not depend on who holds its subscriber, as
    long as the stream keeps it until the upstream has confirmed. -/
theorem Progress.pointers (h : Progress log p u) (hnext : u'.next = u.next)
    (hatt : u.attached = true → confirmed p log = false → u'.attached = true)
    (hdet : u.attached = false → u'.attached = false) : Progress log p u' := by
  cases h with
  | waiting hc hn ht hheard ha hx => exact .waiting hc (hnext.trans hn) ht hheard (hatt ha hc) hx
  | asked hc hn ho ht => exact .asked hc (hnext.trans hn) ho ht
  | holding e hc hn ho ht => exact .holding e hc (hnext.trans hn) ho ht
  | spent hc hn ho ht hd => exact .spent hc (hnext.trans hn) ho ht (hdet hd)

/-- An upstream a step has nothing to do with. -/
theorem Side.alike (h : Side l log p u) (ha : Alike p log log')
    (hcame : cameFrom p log' = cameFrom p log) (hhand : inHand p l' log' = inHand p l log)
    (herr : errorSent log' = true ∨ errorSent log' = errorSent log)
    (hruns : l'.runs = true → l.runs = true) : Side l' log' p u := by
  refine ⟨?_, h.progress.alike ha, ?_, fun hno => ?_, fun hn hb => ?_, fun hr hd => ?_⟩
  · rw [ha.confirmed]
    exact h.subscription
  · rw [ha.sent]
    exact h.held
  · rw [hcame, hhand, ha.sent]
    rcases herr with hyes | hsame
    · exact absurd (hno.symm.trans hyes) Bool.false_ne_true
    · exact h.account (hsame.symm.trans hno)
  · rw [ha.arrived] at hb
    rcases herr with hyes | hsame
    · exact hyes
    · exact hsame.trans (h.passed hn hb)
  · rw [ha.arrived]
    exact h.dropped (hruns hr) hd

/-- What was received, asked for and taken stays the same, and so do the
    books on the whole. -/
structure Unmoved (kinds : List ι) (log log' : Log (Sigma T) ι T) : Prop where
  received : received log' = received log
  demand : demand log' = demand log
  subscribed : subscribed log' = subscribed log
  origins : origins log' = origins log
  unlimited : unlimited log = false ∨ unlimited log' = true
  later : ∀ q, kinds.length ≤ q → Same q log log'

/-- An entry nothing is counted for. The demand does not become infinite
    without a request. -/
theorem unmoved_cons (n : Entry (Sigma T) ι T) (hr : n.received = none) (hd : n.demand = 0)
    (hsub : n.subscribes = false) (ht : takenIn log n = none)
    (hlater : ∀ q, kinds.length ≤ q → Same q log (n :: log)) : Unmoved kinds log (n :: log) := by
  refine ⟨?_, ?_, ?_, ?_, ?_, hlater⟩
  · rw [received_cons, hr, Option.toList_none, List.append_nil]
  · rw [demand_cons, hd, Nat.add_zero]
  · rw [subscribed_cons, hsub, Bool.false_or]
  · rw [origins_cons, ht, Option.toList_none, List.append_nil]
  · cases hu : unlimited log with
    | false => exact Or.inl rfl
    | true => exact Or.inr (by rw [unlimited_cons, hu, Bool.true_or])

theorem Unmoved.trans {log'' : Log (Sigma T) ι T} (h : Unmoved kinds log log')
    (h' : Unmoved kinds log' log'') : Unmoved kinds log log'' := by
  refine ⟨h'.received.trans h.received, h'.demand.trans h.demand, h'.subscribed.trans h.subscribed,
    h'.origins.trans h.origins, ?_, fun q hq => (h.later q hq).trans (h'.later q hq)⟩
  rcases h.unlimited with hno | hyes
  · exact Or.inl hno
  · rcases h'.unlimited with hno' | hyes'
    · exact absurd (hno'.symm.trans hyes) Bool.false_ne_true
    · exact Or.inr hyes'

theorem Unmoved.errorSent (h : Unmoved kinds log log') : errorSent log' = errorSent log := by
  rw [MergeStream.errorSent, MergeStream.errorSent, h.received]

theorem Unmoved.cameFrom (h : Unmoved kinds log log') (q : Nat) :
    cameFrom q log' = cameFrom q log := by
  rw [MergeStream.cameFrom, MergeStream.cameFrom, h.received, h.origins]

theorem Unmoved.inHand (h : Unmoved kinds log log') (q : Nat) (l : Loop (Sigma T)) :
    inHand q l log' = inHand q l log := by
  rw [MergeStream.inHand, MergeStream.inHand, h.origins]

/-- What the upstream at position `q` is known by after entries that are not
    counted. -/
theorem Side.unmoved {q : Nat} (h : Side l log q u) (hm : Unmoved kinds log log')
    (ha : Alike q log log') : Side l log' q u :=
  h.alike ha (hm.cameFrom q) (hm.inHand q l) (Or.inr hm.errorSent) id

/-- The subscriber of the upstream at position `p` is replaced, with calls
    that concern this upstream alone and are not counted. -/
theorem Books.replace (h : Books publisher l s kinds log) (hm : Unmoved kinds log log')
    (hu : s.upstreamSubscribers[p]? = some u)
    (hups : t.upstreamSubscribers = s.upstreamSubscribers.set p u')
    (hreq : t.requestBalance = s.requestBalance) (hdel : t.delivering = s.delivering)
    (hside : Side l log' p u') (ha : ∀ q, q ≠ p → Alike q log log')
    (hconf : confirmed p log = true → confirmed p log' = true)
    (hsent : ∀ e, e ∈ sent p log → e ∈ sent p log')
    (hdone : u.next = none → ended (arrived p log) = true → u'.next = none)
    (hbroke : u'.next = none → brokeOff (arrived p log') = true →
      u.next = none ∧ brokeOff (arrived p log) = true) :
    Books publisher l t kinds log' := by
  have hlt : p < s.upstreamSubscribers.length := (List.getElem?_eq_some_iff.mp hu).1
  have hself : t.upstreamSubscribers[p]? = some u' := by
    rw [hups, List.getElem?_set_self hlt]
  have hother (q : Nat) (hq : q ≠ p) :
      t.upstreamSubscribers[q]? = s.upstreamSubscribers[q]? := by
    rw [hups, List.getElem?_set_ne (Ne.symm hq)]
  refine
    { size := by rw [hups, List.length_set, h.size]
      room := h.room
      full := hm.subscribed ▸ h.full
      early := by rw [hm.subscribed, hreq]; exact h.early
      flag := hdel.trans h.flag
      side := fun q v hv => ?_
      later := fun q hq => (h.later q hq).same (hm.later q hq)
      count := by rw [hm.origins, hm.received]; exact h.count
      hand := h.hand
      limit := fun hno => ?_
      running := by rw [hm.received]; exact h.running
      last := by rw [hm.received]; exact h.last
      finished := fun e he hdn q hq => ?_
      failed := fun e he herr => ?_
      cancelled := fun i hi => ?_ }
  · by_cases hq : q = p
    · rw [hq] at hv ⊢
      rw [hself, Option.some.injEq] at hv
      exact hv ▸ hside
    · rw [hother q hq] at hv
      exact (h.side q v hv).unmoved hm (ha q hq)
  · rw [hreq, hm.received, hm.demand]
    refine h.limit ?_
    rcases hm.unlimited with hold | hnew
    · exact hold
    · exact absurd (hno.symm.trans hnew) Bool.false_ne_true
  · rw [hm.received] at he
    -- an upstream that had ended before the Done still has, with nothing kept
    rcases h.finished e he hdn q hq with ⟨v, hv, hnone, e', he', hdn'⟩
    by_cases hqp : q = p
    · rw [hqp] at hv he' ⊢
      rw [hu, Option.some.injEq] at hv
      subst hv
      have hend : ended (arrived p log) = true := by
        rw [arrived_eq_sent, ended, List.any_map, List.any_eq_true]
        refine ⟨e', he', ?_⟩
        rw [StatusOr.isDone, beq_iff_eq] at hdn'
        simp only [Function.comp, hdn', bne_iff_ne, ne_eq, reduceCtorEq, not_false_eq_true]
      exact ⟨u', hself, hdone hnone hend, e', hsent e' he', hdn'⟩
    · rw [← hother q hqp] at hv
      exact ⟨v, hv, hnone, e', by rw [(ha q hqp).sent]; exact he', hdn'⟩
  · rw [hm.received] at he
    rcases h.failed e he herr with ⟨q, v, hv, hnone, hin, honly⟩
    -- no other upstream has broken off, and the one at `p` only if it had before
    have honly' : ∀ r w, t.upstreamSubscribers[r]? = some w → w.next = none →
        brokeOff (arrived r log') = true → r = q := by
      intro r w hw hwnone hwbroke
      by_cases hrp : r = p
      · rw [hrp] at hw hwbroke ⊢
        rw [hself, Option.some.injEq] at hw
        rw [← hw] at hwnone
        rcases hbroke hwnone hwbroke with ⟨hold, hbold⟩
        exact honly p u hu hold hbold
      · rw [hother r hrp] at hw
        rw [(ha r hrp).arrived] at hwbroke
        exact honly r w hw hwnone hwbroke
    by_cases hqp : q = p
    · rw [hqp] at hv hin
      rw [hu, Option.some.injEq] at hv
      subst hv
      have hend : ended (arrived p log) = true := by
        rw [arrived_eq_sent, ended, List.any_map, List.any_eq_true]
        exact ⟨e, hin, StatusOr.isEnd_of_isError e herr⟩
      exact ⟨p, u', hself, hdone hnone hend, hsent e hin, hqp ▸ honly'⟩
    · rw [← hother q hqp] at hv
      exact ⟨q, v, hv, hnone, by rw [(ha q hqp).sent]; exact hin, honly'⟩
  · by_cases hip : i = p
    · rw [hip]
      exact hconf (hip ▸ h.cancelled i hi)
    · rw [(ha i hip).confirmed]
      exact h.cancelled i hi

/-- Entries that are not counted, and a state with the same upstream
    subscribers. -/
theorem Books.note (h : Books publisher l s kinds log) (hm : Unmoved kinds log log')
    (ha : ∀ q, Alike q log log') (hups : t.upstreamSubscribers = s.upstreamSubscribers)
    (hreq : t.requestBalance = s.requestBalance) (hdel : t.delivering = s.delivering) :
    Books publisher l t kinds log' := by
  refine
    { size := by rw [hups, h.size]
      room := h.room
      full := hm.subscribed ▸ h.full
      early := by rw [hm.subscribed, hreq]; exact h.early
      flag := hdel.trans h.flag
      side := fun q v hv => (h.side q v (hups ▸ hv)).unmoved hm (ha q)
      later := fun q hq => (h.later q hq).same (hm.later q hq)
      count := by rw [hm.origins, hm.received]; exact h.count
      hand := h.hand
      limit := fun hno => ?_
      running := by rw [hm.received]; exact h.running
      last := by rw [hm.received]; exact h.last
      finished := fun e he hdn q hq => ?_
      failed := fun e he herr => ?_
      cancelled := fun i hi => (ha i).confirmed.trans (h.cancelled i hi) }
  -- an infinite request may have come, but then there is no balance to keep
  · rw [hreq, hm.received, hm.demand]
    refine h.limit ?_
    rcases hm.unlimited with hold | hnew
    · exact hold
    · exact absurd (hno.symm.trans hnew) Bool.false_ne_true
  · rw [hm.received] at he
    rw [hups, (ha q).sent]
    exact h.finished e he hdn q hq
  · rw [hm.received] at he
    rcases h.failed e he herr with ⟨q, v, hv, hnone, hin, honly⟩
    refine ⟨q, v, hups ▸ hv, hnone, by rw [(ha q).sent]; exact hin, fun r w hw hwnone hwbroke => ?_⟩
    rw [(ha r).arrived] at hwbroke
    exact honly r w (hups ▸ hw) hwnone hwbroke

theorem unmoved_refl : Unmoved kinds log log :=
  ⟨rfl, rfl, rfl, rfl, by cases unlimited log <;> simp only [reduceCtorEq, or_false, false_or],
    fun _ _ => ⟨rfl, rfl, rfl, rfl, rfl, rfl⟩⟩

theorem alike_refl (q : Nat) : Alike q log log :=
  ⟨rfl, rfl, rfl, fun _ => rfl⟩

/-- A state in which nothing the books are about is different. -/
theorem Books.same (h : Books publisher l s kinds log)
    (hups : t.upstreamSubscribers = s.upstreamSubscribers)
    (hreq : t.requestBalance = s.requestBalance) (hdel : t.delivering = s.delivering) :
    Books publisher l t kinds log :=
  h.note unmoved_refl alike_refl hups hreq hdel

/-- The loop goes on elsewhere, with nothing in hand. -/
theorem Books.goto (h : Books publisher l s kinds log) (hhand : l.inHand = [])
    (hl : ∀ e, l' ≠ .consuming e) (hdel : t.delivering = l'.delivering)
    (hups : t.upstreamSubscribers = s.upstreamSubscribers)
    (hreq : t.requestBalance = s.requestBalance) (hruns : l'.runs = true → l.runs = true)
    (hc : ∀ i, l' = .past (.cancelled i) → confirmed i log = true) :
    Books publisher l' t kinds log := by
  -- only `ConsumeNext` has an event in hand
  have hhand' : l'.inHand = [] := by
    cases l' with
    | consuming e => exact absurd rfl (hl e)
    | quiet => rfl
    | looping => rfl
    | delivered => rfl
    | past a => rfl
  refine
    { size := by rw [hups, h.size]
      room := h.room
      full := h.full
      early := by rw [hreq]; exact h.early
      flag := hdel
      side := fun q v hv => (h.side q v (hups ▸ hv)).alike (alike_refl q) rfl ?_ (Or.inr rfl) hruns
      later := h.later
      count := by rw [hhand']; exact hhand ▸ h.count
      hand := fun e he => absurd he (hl e)
      limit := by rw [hreq]; exact h.limit
      running := fun hr => h.running (hruns hr)
      last := h.last
      finished := by unfold AllDone; rw [hups]; exact h.finished
      failed := by unfold OnlyError; rw [hups]; exact h.failed
      cancelled := hc }
  rw [inHand_empty q l log hhand, inHand_empty q l' log hhand']

end Notes

section Keeps

variable {publisher : MergePublisher ι} {l : Loop (Sigma T)} {s t : MergeStream (Sigma T)}
  {kinds : List ι} {log : Log (Sigma T) ι T} {p : Nat}
  {u : MergeUpstreamSubscriber (Sigma T)}

theorem books_fail (frames : List (Point (Sigma T))) (s : MergeStream (Sigma T)) (msg : String) :
    (books publisher).Owes frames kinds log (s, .fail msg) :=
  ⟨trivial, Or.inl ⟨msg, rfl⟩⟩

theorem books_maybeDeliver (h : Books publisher l s kinds log) (hturn : l.turn = .outside) :
    (books publisher).Owes l.frames kinds log s.maybeDeliver := by
  refine ⟨trivial, Or.inr ?_⟩
  have hflag := h.flag
  unfold maybeDeliver
  by_cases hdel : s.delivering = true
  · rw [if_pos hdel]
    exact ⟨l, hturn, rfl, h⟩
  · rw [if_neg hdel]
    rw [Bool.not_eq_true] at hdel
    rw [hdel] at hflag
    cases l with
    | quiet =>
        exact ⟨.looping, rfl, rfl, h.goto rfl (fun e he => (by cases he)) rfl rfl rfl (fun _ => rfl)
          (fun i hi => (by cases hi))⟩
    | looping => exact absurd hflag Bool.false_ne_true
    | consuming e => exact absurd hflag Bool.false_ne_true
    | delivered => exact absurd hflag Bool.false_ne_true
    | past a => exact absurd hflag Bool.false_ne_true

/-- The stream is let go of. Nothing of the books is lost with it. -/
theorem books_release (h : Books publisher l s kinds log) (hturn : l.turn = .outside) :
    (books publisher).Owes l.frames kinds log s.release := by
  refine ⟨trivial, Or.inr ⟨l, ?_⟩⟩
  unfold release
  by_cases hheld : (s.held || s.hasEnded) = true
  · rw [if_pos hheld]
    exact ⟨hturn, rfl, h⟩
  · rw [if_neg hheld]
    refine ⟨hturn, rfl, h.note ?_ ?_ rfl rfl rfl⟩
    · exact unmoved_cons _ rfl rfl rfl rfl fun q _ => same_out q .destroy
    · exact fun q => Alike.of_same (same_out q .destroy)

/-- A new upstream, which nothing has reached yet. -/
theorem Books.make (h : Books publisher l s kinds log) (i : ι)
    (hroom : kinds.length < publisher.upstream.length) :
    Books publisher l { s with upstreamSubscribers := s.upstreamSubscribers ++ [{}] }
      (kinds ++ [i]) (.ask kinds.length .subscribe :: log) := by
  have hsize := h.size
  have hsilent := h.later kinds.length (Nat.le_refl _)
  have hsame (q : Nat) : Same q log (.ask kinds.length .subscribe :: log) :=
    same_cons q _ rfl rfl (ite_self _) rfl rfl
  have halike (q : Nat) : Alike q log (.ask kinds.length .subscribe :: log) :=
    Alike.of_same (hsame q)
  have hm : Unmoved kinds log (.ask kinds.length .subscribe :: log) :=
    unmoved_cons _ rfl rfl rfl rfl fun q _ => hsame q
  -- `OnSubscribe` is called when all upstreams are there, and this one is not
  have hfree : subscribed log = false := by
    by_contra hsub
    have hfull := h.full (by simpa only [Bool.not_eq_false] using hsub)
    omega
  have hget (q : Nat) (v : MergeUpstreamSubscriber (Sigma T))
      (hv : (s.upstreamSubscribers ++ [({} : MergeUpstreamSubscriber (Sigma T))])[q]? = some v) :
      s.upstreamSubscribers[q]? = some v ∨
        q = kinds.length ∧ v = ({} : MergeUpstreamSubscriber (Sigma T)) := by
    rcases Nat.lt_or_ge q s.upstreamSubscribers.length with hlt | hge
    · rw [List.getElem?_append_left hlt] at hv
      exact Or.inl hv
    · have hq := (List.getElem?_eq_some_iff.mp hv).1
      rw [List.length_append, List.length_singleton] at hq
      have hq' : q = s.upstreamSubscribers.length := by omega
      rw [hq', List.getElem?_append_right (Nat.le_refl _), Nat.sub_self] at hv
      exact Or.inr ⟨hq'.trans hsize, (Option.some.inj hv).symm⟩
  -- nothing can have come from an upstream that does not exist yet
  have horigins : kinds.length ∉ origins log := fun hin => by
    have hpos := tokens_pos_of_mem_origins _ _ hin
    rw [hsilent.tokens] at hpos
    exact Nat.lt_irrefl 0 hpos
  have hunsent : sent kinds.length log = [] := by
    have hheard := hsilent.arrived
    rw [arrived_eq_sent, List.map_eq_nil_iff] at hheard
    exact hheard
  have hunbroken : brokeOff (arrived kinds.length log) = false := by rw [hsilent.arrived]; rfl
  refine
    { size := by rw [List.length_append, List.length_append, hsize]; rfl
      room := by rw [List.length_append, List.length_singleton]; omega
      full := fun hsub => absurd (hfree.symm.trans hsub) Bool.false_ne_true
      early := h.early
      flag := h.flag
      side := fun q v hv => ?_
      later := fun q hq => ?_
      count := by rw [hm.origins, hm.received]; exact h.count
      hand := h.hand
      limit := fun hno => h.limit (unlimited_of_cons hno)
      running := h.running
      last := h.last
      finished := fun e he hdn => ?_
      failed := fun e he herr => ?_
      cancelled := fun j hj => (halike j).confirmed.trans (h.cancelled j hj) }
  · rcases hget q v hv with hold | ⟨rfl, rfl⟩
    · exact (h.side q v hold).unmoved hm (halike q)
    · have hnew := hsilent.same (hsame kinds.length)
      refine ⟨by rw [hnew.confirmed]; rfl,
        .waiting hnew.confirmed rfl hnew.tokens hnew.arrived rfl hnew.cancels,
        (fun e he => (by cases he)), fun _ => ?_, fun _ hbroke => ?_, fun _ hdet => (by cases hdet)⟩
      · rw [(halike _).sent, hunsent, hm.cameFrom, cameFrom, originating_nil _ _ _ horigins,
          hm.inHand, inHand, if_neg fun hlast => horigins (List.mem_of_getLast? hlast)]
        rfl
      · rw [(halike _).arrived, hunbroken] at hbroke
        exact absurd hbroke Bool.false_ne_true
  · rw [List.length_append, List.length_singleton] at hq
    exact (h.later q (by omega)).same (hsame q)
  · -- the upstream that is missing cannot have ended
    rcases h.finished e he hdn kinds.length hroom with ⟨v, hv, -⟩
    have hlt := (List.getElem?_eq_some_iff.mp hv).1
    omega
  · rcases h.failed e he herr with ⟨q, v, hv, hnone, hin, honly⟩
    refine ⟨q, v, ?_, hnone, hin, fun r w hw hwnone hwbroke => ?_⟩
    · exact (List.getElem?_append_left (List.getElem?_eq_some_iff.mp hv).1).trans hv
    · rw [(halike r).arrived] at hwbroke
      rcases hget r w hw with hold | ⟨rfl, -⟩
      · exact honly r w hold hwnone hwbroke
      · exact absurd (hunbroken.symm.trans hwbroke) Bool.false_ne_true

/-- The subscriber is given the subscription. -/
theorem Books.confirm (h : Books publisher l s kinds log)
    (hfull : kinds.length = publisher.upstream.length) :
    Books publisher l s kinds (.out .onSubscribe :: log) :=
  have halike (q : Nat) : Alike q log (.out .onSubscribe :: log) :=
    Alike.of_same (same_out q .onSubscribe)
  have horigins : origins (.out .onSubscribe :: log) = origins log := List.append_nil _
  have hhand (q : Nat) : inHand q l (.out .onSubscribe :: log) = inHand q l log := by
    rw [inHand, inHand, horigins]
  have hcame (q : Nat) : cameFrom q (.out .onSubscribe :: log) = cameFrom q log := by
    rw [cameFrom, cameFrom, horigins]
    rfl
  { size := h.size
    room := h.room
    full := fun _ => hfull
    early := fun hno => (by cases hno)
    flag := h.flag
    side := fun q v hv =>
      (h.side q v hv).alike (halike q) (hcame q) (hhand q) (Or.inr rfl) id
    later := fun q hq => (h.later q hq).same (same_out q .onSubscribe)
    count := (congrArg List.length horigins).trans h.count
    hand := h.hand
    limit := fun hno => h.limit (unlimited_of_cons hno)
    running := h.running
    last := h.last
    finished := h.finished
    failed := h.failed
    cancelled := h.cancelled }

/-- The next upstream is subscribed, or the subscription is confirmed. -/
theorem books_subscribeNext (h : Books publisher l s kinds log) (hturn : l.turn = .outside) :
    (books publisher).Owes l.frames kinds log (subscribeNext publisher s) := by
  refine ⟨trivial, Or.inr ⟨l, ?_⟩⟩
  have hsize := h.size
  have hroom := h.room
  unfold subscribeNext
  cases hnext : publisher.upstream[s.upstreamSubscribers.length]? with
  | none =>
      have hge := List.getElem?_eq_none_iff.mp hnext
      exact ⟨hturn, rfl, h.confirm (by omega)⟩
  | some i =>
      have hlt := (List.getElem?_eq_some_iff.mp hnext).1
      exact ⟨hturn, rfl, h.make i (by omega)⟩

/-- An upstream confirms its subscription, and is asked for its first
    event. -/
theorem books_onSubscribe (h : Books publisher l s kinds log) (hturn : l.turn = .outside) (i : ι)
    (hp : p < kinds.length) :
    (books publisher).Owes l.frames kinds (.said p i .onSubscribe :: log) (s.onSubscribe p) := by
  unfold onSubscribe
  cases hu : s.upstreamSubscribers[p]? with
  | none => exact books_fail _ _ _
  | some u =>
      simp only
      have hside := h.side p u hu
      by_cases hagain : u.upstreamSubscription.isSome = true
      · rw [if_pos hagain]
        exact books_fail _ _ _
      · rw [if_neg hagain]
        have hunconf : confirmed p log = false := by
          rw [hside.subscription] at hagain
          cases hconf : confirmed p log with
          | false => rfl
          | true =>
              rw [hconf, if_pos rfl] at hagain
              exact absurd rfl hagain
        have hne (q : Nat) (hq : kinds.length ≤ q) : p ≠ q := by omega
        -- only an upstream that has not confirmed can be waiting
        cases hside.progress with
        | asked hconf => exact absurd (hunconf.symm.trans hconf) Bool.false_ne_true
        | holding e hconf => exact absurd (hunconf.symm.trans hconf) Bool.false_ne_true
        | spent hconf => exact absurd (hunconf.symm.trans hconf) Bool.false_ne_true
        | waiting _ hnone hunasked hunheard hatt _ =>
            -- the first token is asked for before any event, so no event is taken in
            -- with it
            have hfirst : takenIn (.said p i .onSubscribe :: log) (.ask p (.request 1)) = none := by
              rw [takenIn, tokens_cons, hunasked]
              rfl
            have hm : Unmoved kinds log (.ask p (.request 1) :: .said p i .onSubscribe :: log) :=
              (unmoved_cons (.said p i .onSubscribe) rfl rfl rfl rfl
                fun q hq => same_said (hne q hq) i .onSubscribe).trans
              (unmoved_cons (.ask p (.request 1)) rfl rfl rfl hfirst
                fun q hq => same_ask (hne q hq) (.request 1))
            have hsent : sent p (.ask p (.request 1) :: .said p i .onSubscribe :: log) =
                sent p log := by
              simp only [sent_cons, sentIn, if_true, Signal.event?, Option.map_none,
                Option.toList_none, List.append_nil]
            have hconf : confirmed p (.ask p (.request 1) :: .said p i .onSubscribe :: log) =
                true := by
              simp only [confirmed_cons, Entry.confirms, beq_self_eq_true, Bool.true_or,
                Bool.or_true]
            have hheard : arrived p (.ask p (.request 1) :: .said p i .onSubscribe :: log) =
                [] := by
              rw [arrived_eq_sent, hsent, ← arrived_eq_sent, hunheard]
            have hasked : tokens p (.ask p (.request 1) :: .said p i .onSubscribe :: log) = 1 := by
              simp only [tokens_cons, hunasked, Entry.tokens, if_true, Call.count]
            have hbooks : Books publisher l
                (s.setUpstream p { u with upstreamSubscription := some p }) kinds
                (.ask p (.request 1) :: .said p i .onSubscribe :: log) := by
              refine h.replace hm hu rfl rfl rfl ?_ ?_ (fun _ => hconf) (fun e he => hsent ▸ he)
                (fun _ _ => hnone) ?_
              · refine ⟨?_, ?_, ?_, fun hno => ?_, fun hn hb => ?_, fun _ hdet => ?_⟩
                · rw [hconf, if_pos rfl]
                · refine .asked hconf hnone (by rw [hheard, ended_nil]) ?_
                  rw [hasked, hheard, List.length_nil]
                · exact fun e he => absurd (hnone.symm.trans he) (Option.some_ne_none e).symm
                · rw [hsent, hm.cameFrom, hm.inHand]
                  exact hside.account (hm.errorSent.symm.trans hno)
                · rw [hheard] at hb
                  exact absurd hb Bool.false_ne_true
                · exact absurd (hatt.symm.trans hdet) (by decide)
              · exact fun q hq => Alike.of_same ((same_said (Ne.symm hq) i .onSubscribe).trans
                  (same_ask (Ne.symm hq) (.request 1)))
              · intro _ hb
                rw [hheard] at hb
                exact absurd hb Bool.false_ne_true
            exact ⟨trivial, Or.inr ⟨l, hturn, rfl, hbooks⟩⟩

/-- An event arrives and is kept. The upstream was asked for it, so there is
    none yet. -/
theorem books_onNext (h : Books publisher l s kinds log) (hturn : l.turn = .outside) (i : ι)
    (hp : p < kinds.length) (e : StatusOr (T i)) (hconf : confirmed p log = true)
    (hstrict : Strict (tokens p log) (arrived p log ++ [e.code])) :
    (books publisher).Owes l.frames kinds (.said p i (.onNext e) :: log)
      (s.onNext p (inVariant i e)) := by
  rw [strict_append] at hstrict
  rcases hstrict with ⟨hleft, hok⟩
  have hopen : ended (arrived p log) = false := (ended_eq_false _).mpr hok
  unfold onNext
  cases hu : s.upstreamSubscribers[p]? with
  | none => exact books_fail _ _ _
  | some u =>
      simp only
      have hside := h.side p u hu
      by_cases hfull : u.next.isSome = true
      · rw [if_pos hfull]
        exact books_fail _ _ _
      · rw [if_neg hfull]
        -- the event was asked for, so none is kept and the upstream has not ended
        cases hside.progress with
        | waiting hun => exact absurd (hun.symm.trans hconf) Bool.false_ne_true
        | holding x _ hsome =>
            rw [hsome] at hfull
            exact absurd rfl hfull
        | spent _ _ hover => exact absurd (hopen.symm.trans hover) Bool.false_ne_true
        | asked _ hnone _ hasked =>
            have hm : Unmoved kinds log (.said p i (.onNext e) :: log) :=
              unmoved_cons _ rfl rfl rfl rfl fun q hq => same_said (by omega) i (.onNext e)
            have hsent : sent p (.said p i (.onNext e) :: log) =
                sent p log ++ [inVariant i e] := by
              simp only [sent_cons, sentIn, if_true, Signal.event?, Option.map_some,
                Option.toList_some]
            have hheard : arrived p (.said p i (.onNext e) :: log) =
                arrived p log ++ [e.code] := by
              rw [arrived_eq_sent, hsent, List.map_append, ← arrived_eq_sent]
              simp only [List.map_cons, List.map_nil, code_inVariant]
            have hbooks : Books publisher l
                (s.setUpstream p { u with next := some (inVariant i e) })
                kinds (.said p i (.onNext e) :: log) := by
              refine h.replace hm hu rfl rfl rfl ?_ ?_ id ?_ ?_ ?_
              · refine ⟨hside.subscription, ?_, ?_, fun hno => ?_, ?_, fun hr hdet => ?_⟩
                · refine .holding (inVariant i e) hconf rfl ⟨arrived p log, ?_, hopen⟩ ?_
                  · rw [hheard, code_inVariant]
                  · rw [hheard, List.length_append, List.length_singleton]
                    exact hasked
                · intro x hx
                  rw [hsent, List.mem_append, ← Option.some.inj hx]
                  exact Or.inr (List.mem_singleton_self _)
                -- what was sent is what was delivered, what is in hand and what is kept
                · have hold := hside.account (hm.errorSent.symm.trans hno)
                  rw [hnone, Option.toList_none, valuesOf_nil, List.append_nil] at hold
                  rw [hsent, valuesOf_append, ← hold, hm.cameFrom, hm.inHand, Option.toList_some]
                · exact fun hn => (by cases hn)
                · exact absurd (hopen.symm.trans (hside.dropped hr hdet).1) Bool.false_ne_true
              · exact fun q hq => Alike.of_same (same_said (Ne.symm hq) i (.onNext e))
              · intro x hx
                rw [hsent, List.mem_append]
                exact Or.inl hx
              · exact fun _ hover => absurd (hopen.symm.trans hover) Bool.false_ne_true
              · exact fun hn => (by cases hn)
            simp only [upstreamSubscriberStateChanged, Int.zero_lt_one, if_true]
            exact books_maybeDeliver (hbooks.same rfl rfl rfl) hturn

theorem books_destroyWrapper (h : Books publisher l s kinds log) (hturn : l.turn = .outside)
    (i : ι) (hp : p < kinds.length) :
    (books publisher).Owes l.frames kinds (.said p i .destroy :: log) (s.destroyWrapper p) := by
  unfold destroyWrapper
  cases hu : s.upstreamSubscribers[p]? with
  | none => exact books_fail _ _ _
  | some u =>
      have hside := h.side p u hu
      have hm : Unmoved kinds log (.said p i .destroy :: log) :=
        unmoved_cons _ rfl rfl rfl rfl fun q hq => same_said (by omega) i .destroy
      have halike (q : Nat) : Alike q log (.said p i .destroy :: log) :=
        alike_cons q _ rfl rfl (ite_self _) fun _ => rfl
      have hnew : Side l (.said p i .destroy :: log) p { u with wrapped := false } :=
        { hside.unmoved hm (halike p) with
          progress := (hside.unmoved hm (halike p)).progress.pointers rfl (fun hatt _ => hatt) id }
      refine books_release (h.replace hm hu rfl rfl rfl hnew (fun q _ => halike q) ?_ ?_ ?_ ?_)
        hturn
      · rw [(halike p).confirmed]
        exact id
      · rw [(halike p).sent]
        exact fun _ he => he
      · exact fun hnone _ => hnone
      · rw [(halike p).arrived]
        exact fun hnone hbroke => ⟨hnone, hbroke⟩

/-- The subscriber requests. -/
theorem books_request (h : Books publisher l s kinds log) (hturn : l.turn = .outside) (n : Nat)
    (hsub : subscribed log = true) :
    (books publisher).Owes l.frames kinds (.call (.request n) :: log) (s.request n) := by
  have halike (q : Nat) : Alike q log (.call (.request n) :: log) :=
    Alike.of_same (same_call q _)
  have horigins : origins (.call (.request n) :: log) = origins log := List.append_nil _
  have hcame (q : Nat) : cameFrom q (.call (.request n) :: log) = cameFrom q log := by
    rw [cameFrom, cameFrom, horigins]
    rfl
  have hhand (q : Nat) : inHand q l (.call (.request n) :: log) = inHand q l log := by
    rw [inHand, inHand, horigins]
  refine books_maybeDeliver (s := { s with requestBalance := s.requestBalance.add n }) ?_ hturn
  refine
    { size := h.size
      room := h.room
      full := h.full
      early := fun hno => absurd (hsub.symm.trans hno) (by decide)
      flag := h.flag
      side := fun q v hv => (h.side q v hv).alike (halike q) (hcame q) (hhand q) (Or.inr rfl) id
      later := fun q hq => (h.later q hq).same (same_call q _)
      count := (congrArg List.length horigins).trans h.count
      hand := h.hand
      limit := fun hno => ?_
      running := h.running
      last := h.last
      finished := h.finished
      failed := h.failed
      cancelled := h.cancelled }
  -- without an infinite request the sum fits, so `Add` does not saturate
  rw [unlimited_cons, Bool.or_eq_false_iff, decide_eq_false_iff_not] at hno
  rcases hno with ⟨hold, hfits⟩
  rcases h.limit hold with ⟨-, hbal⟩
  simp only [Entry.demand, Call.count] at hfits
  have hadd := RequestBalance.balance_add_of_lt s.requestBalance n (by omega)
  have hdemand : demand (.call (.request n) :: log) = demand log + n := rfl
  have hreceived : received (.call (.request n) :: log) = received log := rfl
  rw [hdemand, hreceived]
  simp only [hadd]
  omega

/-- A stream that has not ended has not sent an error. -/
theorem brokeOff_of_not_ended (codes : List StatusCode) (h : ended codes = false) :
    brokeOff codes = false := by
  rw [brokeOff, List.any_eq_false]
  intro c hc
  rw [(ended_eq_false codes).mp h c hc]
  simp only [bne_self_eq_false, Bool.false_and, Bool.false_eq_true, not_false_eq_true]

/-- What an upstream has sent that holds an event: nothing but values before
    it, and as many as it was asked for. -/
theorem Side.holding (h : Side l log p u) (e : StatusOr (Sigma T)) (hnext : u.next = some e) :
    confirmed p log = true ∧ (∃ older, arrived p log = older ++ [e.code] ∧ ended older = false) ∧
      tokens p log = (arrived p log).length := by
  cases h.progress with
  | waiting _ hn => exact absurd (hn.symm.trans hnext) (Option.some_ne_none e).symm
  | asked _ hn => exact absurd (hn.symm.trans hnext) (Option.some_ne_none e).symm
  | spent _ hn => exact absurd (hn.symm.trans hnext) (Option.some_ne_none e).symm
  | holding x hconf hsome hcode hasked =>
      have hx : x = e := Option.some.inj (hsome.symm.trans hnext)
      exact ⟨hconf, hx ▸ hcode, hasked⟩

/-- A value is taken, and its upstream is asked for the next event. -/
theorem Books.take (h : Books publisher .looping s kinds log)
    (hu : s.upstreamSubscribers[p]? = some u) (v : Sigma T) (hnext : u.next = some (.value v)) :
    Books publisher (.consuming (.value v)) (s.setUpstream p { u with next := none }) kinds
      (.ask p (.request 1) :: log) := by
  have hside := h.side p u hu
  have hlt : p < s.upstreamSubscribers.length := (List.getElem?_eq_some_iff.mp hu).1
  have hlen : (valuesOf (received log)).length = (origins log).length := h.count.symm
  have hrun : ∀ x ∈ received log, x.isEnd = false := h.running rfl
  have hsize := h.size
  rcases hside.holding _ hnext with ⟨hconf, ⟨older, hcodes, holder⟩, hasked⟩
  have hopen : ended (arrived p log) = false := by
    rw [hcodes, ended_append, holder]
    rfl
  have hpos : 0 < tokens p log := by
    rw [hasked, hcodes, List.length_append]
    exact Nat.succ_pos _
  -- the token that asks for the next event marks the value as taken from `p`
  have horigins : origins (.ask p (.request 1) :: log) = origins log ++ [p] := by
    rw [origins_cons, takenIn, if_pos hpos, Option.toList_some]
  have hcame (q : Nat) : cameFrom q (.ask p (.request 1) :: log) = cameFrom q log := by
    rw [cameFrom, horigins]
    exact originating_ahead q p _ _ hlen
  have hother (q : Nat) (hq : q ≠ p) :
      inHand q (.consuming (.value v)) (.ask p (.request 1) :: log) = inHand q .looping log := by
    rw [inHand_empty q .looping log rfl, inHand, horigins, List.getLast?_concat, if_neg]
    exact fun heq => hq (Option.some.inj heq).symm
  have hmine : inHand p (.consuming (.value v)) (.ask p (.request 1) :: log) = [v] := by
    rw [inHand, horigins, List.getLast?_concat, if_pos rfl]
    rfl
  have halike (q : Nat) (hq : q ≠ p) : Alike q log (.ask p (.request 1) :: log) :=
    Alike.of_same (same_ask (Ne.symm hq) _)
  have hget (q : Nat) (w : MergeUpstreamSubscriber (Sigma T))
      (hw : (s.upstreamSubscribers.set p { u with next := none })[q]? = some w) :
      q = p ∧ w = { u with next := none } ∨ q ≠ p ∧ s.upstreamSubscribers[q]? = some w := by
    by_cases hq : q = p
    · rw [hq, List.getElem?_set_self hlt, Option.some.injEq] at hw
      exact Or.inl ⟨hq, hw.symm⟩
    · rw [List.getElem?_set_ne (Ne.symm hq)] at hw
      exact Or.inr ⟨hq, hw⟩
  refine
    { size := (List.length_set ..).trans h.size
      room := h.room
      full := h.full
      early := h.early
      flag := h.flag
      side := fun q w hw => ?_
      later := fun q hq => (h.later q hq).same (same_ask (by omega) _)
      count := ?_
      hand := fun e he => Loop.consuming.inj he ▸ rfl
      limit := fun hno => h.limit (unlimited_of_cons hno)
      running := h.running
      last := h.last
      finished := fun e he hdn => ?_
      failed := fun e he herr => ?_
      cancelled := fun i hi => (by cases hi) }
  -- at `p` the value moves from the subscriber into the hand
  · rcases hget q w hw with ⟨rfl, rfl⟩ | ⟨hq, hold⟩
    · refine ⟨hside.subscription, ?_, (fun e he => (by cases he)), fun hno => ?_, fun _ hb => ?_,
        fun _ hdet => ?_⟩
      · refine .asked hconf rfl hopen ?_
        rw [tokens_cons, hasked]
        exact congrArg _ (if_pos rfl)
      · have hold := hside.account hno
        rw [hnext, Option.toList_some, valuesOf_value, inHand_empty _ .looping _ rfl,
          List.append_nil] at hold
        rw [hcame, hmine]
        exact (List.append_nil _).trans hold
      · exact absurd ((brokeOff_of_not_ended _ hopen).symm.trans hb) Bool.false_ne_true
      · have hnone := (hside.dropped rfl hdet).2
        exact absurd (hnone.symm.trans hnext) (Option.some_ne_none _).symm
    · exact (h.side q w hold).alike (halike q hq) (hcame q) (hother q hq) (Or.inr rfl) id
  · rw [horigins, List.length_append, ← hlen]
    rfl
  -- while the loop runs no end has been delivered
  · have hval := hrun e he
    rw [StatusOr.isDone, beq_iff_eq] at hdn
    rw [StatusOr.isEnd, hdn] at hval
    exact absurd hval (by decide)
  · exact absurd ((hrun e he).symm.trans (StatusOr.isEnd_of_isError e herr)) Bool.false_ne_true

/-- The value in hand is delivered. -/
theorem Books.hand_over (v : Sigma T) (h : Books publisher (.consuming (.value v)) s kinds log)
    (b : RequestBalance) (hb : s.requestBalance.remove 1 = some b) :
    Books publisher .delivered { s with requestBalance := b } kinds
      (.out (.onNext (.value v)) :: log) := by
  have hrec : received (.out (.onNext (.value v)) :: log) = received log ++ [.value v] :=
    received_cons _ _
  have hcount := h.count
  have hrun := h.running rfl
  -- the last of the origins is that of the value in hand
  rcases List.eq_nil_or_concat (origins log) with hnil | ⟨from_, q, horigins⟩
  · rw [hnil] at hcount
    exact absurd hcount (Nat.succ_ne_zero _).symm
  rw [List.concat_eq_append] at horigins
  have hlen : (valuesOf (received log)).length = from_.length := by
    rw [horigins, List.length_append] at hcount
    exact (Nat.succ.inj hcount).symm
  have hcame (p : Nat) : cameFrom p (.out (.onNext (.value v)) :: log) =
      cameFrom p log ++ inHand p (.consuming (.value v)) log := by
    have hstay : origins (.out (.onNext (.value v)) :: log) = origins log := List.append_nil _
    rw [cameFrom, hstay, hrec, valuesOf_append, valuesOf_value, horigins,
      originating_concat _ _ _ _ _ hlen, cameFrom, horigins, originating_ahead _ _ _ _ hlen,
      inHand, horigins, List.getLast?_concat]
    by_cases hq : q = p
    · rw [if_pos hq, if_pos (congrArg some hq)]
      rfl
    · rw [if_neg hq, if_neg fun heq => hq (Option.some.inj heq)]
  have hsent : errorSent (.out (.onNext (.value v)) :: log) = errorSent log := by
    rw [errorSent, hrec, List.any_append, errorSent]
    exact Bool.or_false _
  have hnew : ∀ x ∈ received (.out (.onNext (.value v)) :: log), x.isEnd = false := by
    intro x hx
    rw [hrec, List.mem_append, List.mem_singleton] at hx
    rcases hx with hx | rfl
    · exact hrun x hx
    · rfl
  have halike (p : Nat) : Alike p log (.out (.onNext (.value v)) :: log) :=
    Alike.of_same (same_out p _)
  refine
    { size := h.size
      room := h.room
      full := h.full
      early := fun hno => ?_
      flag := h.flag
      side := fun p u hu => ?_
      later := fun p hp => (h.later p hp).same (same_out p _)
      count := ?_
      hand := fun e he => (by cases he)
      limit := fun hno => ?_
      running := fun _ => hnew
      last := fun e he => hnew e (List.dropLast_subset _ he)
      finished := fun e he hdn => ?_
      failed := fun e he herr => ?_
      cancelled := fun i hi => (by cases hi) }
  · have hzero := h.early hno
    have hle := RequestBalance.balance_remove_le _ _ _ hb
    exact Nat.le_zero.mp (hzero ▸ hle)
  · have hold := h.side p u hu
    refine ⟨hold.subscription, hold.progress.alike (halike p), hold.held, fun hno => ?_,
      fun hn hbr => ?_, hold.dropped⟩
    · rw [hcame, inHand_empty _ .delivered _ rfl, List.append_nil]
      exact hold.account (hsent.symm.trans hno)
    · rw [hsent]
      exact hold.passed hn hbr
  · have hstay : origins (.out (.onNext (.value v)) :: log) = origins log := List.append_nil _
    rw [hstay, hrec, hcount, valuesOf_append, List.length_append]
    rfl
  · rcases h.limit (unlimited_of_cons hno) with ⟨hlt, hbal⟩
    have hsub := RequestBalance.remove_of_lt _ _ _ hlt hb
    have hvals : values (received (.out (.onNext (.value v)) :: log)) =
        values (received log) + 1 := by
      rw [hrec, values_append]
      rfl
    have hdemand : demand (.out (.onNext (.value v)) :: log) = demand log := rfl
    rw [hvals, hdemand]
    simp only
    omega
  · have hval := hnew e he
    rw [StatusOr.isDone, beq_iff_eq] at hdn
    rw [StatusOr.isEnd, hdn] at hval
    exact absurd hval (by decide)
  · exact absurd ((hnew e he).symm.trans (StatusOr.isEnd_of_isError e herr)) Bool.false_ne_true

/-- What is known of an upstream whose end has been taken. -/
theorem Side.spent (h : Side .looping log p u) (e : StatusOr (Sigma T)) (hnext : u.next = some e)
    (hend : e.isEnd = true) :
    ended (arrived p log) = true ∧ brokeOff (arrived p log) = e.isError ∧
      Progress log p { u with next := none, attached := false } ∧
      (errorSent log = false → cameFrom p log = valuesOf (sent p log)) := by
  rcases h.holding e hnext with ⟨hconf, ⟨older, hcodes, holder⟩, hasked⟩
  have hover : ended (arrived p log) = true := by
    rw [hcodes, ended_append, ended_singleton]
    rw [StatusOr.isEnd] at hend
    rw [hend, Bool.or_true]
  refine ⟨hover, ?_, .spent hconf rfl hover hasked rfl, fun hno => ?_⟩
  · have hcalm := brokeOff_of_not_ended older holder
    rw [isError_eq, hcodes, brokeOff, List.any_append]
    rw [brokeOff] at hcalm
    rw [hcalm, Bool.false_or, brokeOff]
  · have hold := h.account hno
    rwa [hnext, Option.toList_some, valuesOf_end e hend, inHand_empty _ .looping _ rfl,
      List.append_nil, List.append_nil] at hold

/-- The end of an upstream is taken, and others have not ended. -/
theorem Books.spend (h : Books publisher .looping s kinds log)
    (hu : s.upstreamSubscribers[p]? = some u) (e : StatusOr (Sigma T)) (hnext : u.next = some e)
    (hend : e.isEnd = true) (herr : e.isError = false)
    (hups : t.upstreamSubscribers =
      s.upstreamSubscribers.set p { u with next := none, attached := false })
    (hreq : t.requestBalance = s.requestBalance) (hdel : t.delivering = s.delivering) :
    Books publisher .looping t kinds log := by
  have hside := h.side p u hu
  rcases hside.spent e hnext hend with ⟨hover, hbroke, hprogress, haccount⟩
  refine h.replace unmoved_refl hu hups hreq hdel ?_ (fun q _ => alike_refl q) id (fun _ he => he)
    (fun _ _ => rfl) ?_
  · refine ⟨hside.subscription, hprogress, (fun x hx => (by cases hx)), fun hno => ?_,
      fun _ hb => ?_, fun _ _ => ⟨hover, rfl⟩⟩
    · rw [inHand_empty _ .looping _ rfl, haccount hno]
      exact (List.append_nil _).trans (List.append_nil _)
    · exact absurd ((hbroke.trans herr).symm.trans hb) Bool.false_ne_true
  · exact fun _ hb => absurd ((hbroke.trans herr).symm.trans hb) Bool.false_ne_true

/-- An end that is delivered comes from nowhere. -/
theorem cameFrom_end (q : Nat) (ev : StatusOr (Sigma T)) (hend : ev.isEnd = true) :
    cameFrom q (.out (.onNext ev) :: log) = cameFrom q log := by
  have hrec : received (.out (.onNext ev) :: log) = received log ++ [ev] := received_cons _ _
  have horigins : origins (.out (.onNext ev) :: log) = origins log := List.append_nil _
  rw [cameFrom, cameFrom, hrec, valuesOf_append, valuesOf_end ev hend, List.append_nil, horigins]

/-- The end of an upstream is taken, and an end is delivered. -/
theorem Books.close (h : Books publisher .looping s kinds log)
    (hu : s.upstreamSubscribers[p]? = some u) (u' : MergeUpstreamSubscriber (Sigma T))
    (hups : t.upstreamSubscribers = s.upstreamSubscribers.set p u')
    (hreq : t.requestBalance = s.requestBalance) (hdel : t.delivering = s.delivering)
    (ev : StatusOr (Sigma T)) (hend : ev.isEnd = true) (a : After) (ha : ∀ i, a ≠ .cancelled i)
    (hside : Side (.past a) (.out (.onNext ev) :: log) p u')
    (hdone : ev.isDone = true → AllDone publisher t log)
    (herr : ev.isError = true → OnlyError t log ev) :
    Books publisher (.past a) t kinds (.out (.onNext ev) :: log) := by
  have hlt : p < s.upstreamSubscribers.length := (List.getElem?_eq_some_iff.mp hu).1
  have hrec : received (.out (.onNext ev) :: log) = received log ++ [ev] := received_cons _ _
  have hvals : valuesOf (received (.out (.onNext ev) :: log)) = valuesOf (received log) := by
    rw [hrec, valuesOf_append, valuesOf_end ev hend, List.append_nil]
  have horigins : origins (.out (.onNext ev) :: log) = origins log := List.append_nil _
  have hcame (q : Nat) : cameFrom q (.out (.onNext ev) :: log) = cameFrom q log :=
    cameFrom_end q ev hend
  have hsent : errorSent (.out (.onNext ev) :: log) = true ∨
      errorSent (.out (.onNext ev) :: log) = errorSent log := by
    rw [errorSent, hrec, List.any_append, errorSent]
    cases hev : ev.isError with
    | true =>
        rw [List.any_cons, hev, Bool.true_or, Bool.or_true]
        exact Or.inl rfl
    | false =>
        rw [List.any_cons, hev, List.any_nil, Bool.or_false, Bool.or_false]
        exact Or.inr rfl
  have halike (q : Nat) : Alike q log (.out (.onNext ev) :: log) :=
    Alike.of_same (same_out q _)
  have hnew : ∀ x ∈ received (.out (.onNext ev) :: log), x.isEnd = true → x = ev := by
    intro x hx hxe
    rw [hrec, List.mem_append, List.mem_singleton] at hx
    rcases hx with hx | rfl
    · exact absurd ((h.running rfl x hx).symm.trans hxe) Bool.false_ne_true
    · rfl
  refine
    { size := by rw [hups, List.length_set, h.size]
      room := h.room
      full := h.full
      early := by rw [hreq]; exact h.early
      flag := hdel.trans h.flag
      side := fun q v hv => ?_
      later := fun q hq => (h.later q hq).same (same_out q _)
      count := by rw [horigins, hvals]; exact h.count
      hand := fun e he => (by cases he)
      limit := fun hno => ?_
      running := fun hr => (by cases hr)
      last := by rw [hrec, List.dropLast_concat]; exact h.running rfl
      finished := fun e he hdn => ?_
      failed := fun e he herror => ?_
      cancelled := fun i hi => absurd (Loop.past.inj hi) (ha i) }
  · by_cases hq : q = p
    · rw [hq] at hv ⊢
      rw [hups, List.getElem?_set_self hlt, Option.some.injEq] at hv
      exact hv ▸ hside
    · rw [hups, List.getElem?_set_ne (Ne.symm hq)] at hv
      refine (h.side q v hv).alike (halike q) (hcame q) ?_ hsent fun hr => (by cases hr)
      rw [inHand_empty _ (.past a) _ rfl, inHand_empty _ .looping _ rfl]
  · have hzero : values (received (.out (.onNext ev) :: log)) = values (received log) := by
      rw [← length_valuesOf, ← length_valuesOf, hvals]
    have hdemand : demand (.out (.onNext ev) :: log) = demand log := rfl
    rw [hreq, hzero, hdemand]
    exact h.limit (unlimited_of_cons hno)
  · have hxe : e.isEnd = true := by
      rw [StatusOr.isDone, beq_iff_eq] at hdn
      rw [StatusOr.isEnd, hdn]
      rfl
    exact hdone (hnew e he hxe ▸ hdn)
  · have heq := hnew e he (StatusOr.isEnd_of_isError e herror)
    rw [heq] at herror ⊢
    exact herr herror

/-- An error is taken and delivered. -/
theorem Books.error (h : Books publisher .looping s kinds log)
    (hu : s.upstreamSubscribers[p]? = some u) (e : StatusOr (Sigma T)) (hnext : u.next = some e)
    (herr : e.isError = true)
    (hups : t.upstreamSubscribers =
      s.upstreamSubscribers.set p { u with next := none, attached := false })
    (hreq : t.requestBalance = s.requestBalance) (hdel : t.delivering = s.delivering) :
    Books publisher (.past .failed) t kinds (.out (.onNext e) :: log) := by
  have hlt : p < s.upstreamSubscribers.length := (List.getElem?_eq_some_iff.mp hu).1
  have hside := h.side p u hu
  have hend := StatusOr.isEnd_of_isError e herr
  rcases hside.spent e hnext hend with ⟨-, -, hprogress, -⟩
  have hrec : received (.out (.onNext e) :: log) = received log ++ [e] := received_cons _ _
  have hsent : errorSent (.out (.onNext e) :: log) = true := by
    rw [errorSent, hrec, List.any_append, List.any_cons, herr, Bool.true_or, Bool.or_true]
  -- no error came before, for the loop would have stopped
  have hcalm : errorSent log = false := by
    rw [errorSent, List.any_eq_false]
    intro x hx hxe
    exact absurd ((h.running rfl x hx).symm.trans (StatusOr.isEnd_of_isError x hxe))
      Bool.false_ne_true
  refine h.close hu _ hups hreq hdel e hend .failed (fun i => by simp only [ne_eq, reduceCtorEq,
    not_false_eq_true]) ?_ (fun hdn => ?_) fun _ => ?_
  · refine ⟨hside.subscription, hprogress.alike (Alike.of_same (same_out p _)),
      (fun x hx => (by cases hx)), fun hno => ?_, fun _ _ => hsent, fun hr => (by cases hr)⟩
    exact absurd (hno.symm.trans hsent) Bool.false_ne_true
  · rw [StatusOr.isError, hdn, Bool.not_true, Bool.and_false] at herr
    exact absurd herr Bool.false_ne_true
  · refine ⟨p, _, by rw [hups, List.getElem?_set_self hlt], rfl, hside.held e hnext, ?_⟩
    intro q v hv hvnone hvbroke
    by_cases hq : q = p
    · exact hq
    · -- the error of another upstream would have been delivered before
      rw [hups, List.getElem?_set_ne (Ne.symm hq)] at hv
      have hyes := (h.side q v hv).passed hvnone hvbroke
      exact absurd (hcalm.symm.trans hyes) Bool.false_ne_true

/-- What ends and is no error is `Done`. -/
theorem isDone_of_isEnd {V : Type} (e : StatusOr V) (hend : e.isEnd = true)
    (herr : e.isError = false) : e.isDone = true := by
  rw [StatusOr.isEnd] at hend
  rw [StatusOr.isError, hend, Bool.true_and, Bool.not_eq_false'] at herr
  exact herr

/-- An upstream that was let go of without an error is done. -/
theorem Side.done (h : Side .looping log p u) (hcalm : errorSent log = false)
    (hdet : u.attached = false) : u.next = none ∧ ∃ e ∈ sent p log, e.isDone = true := by
  rcases h.dropped rfl hdet with ⟨hover, hnone⟩
  refine ⟨hnone, ?_⟩
  rw [arrived_eq_sent, ended, List.any_map, List.any_eq_true] at hover
  rcases hover with ⟨e, he, hend⟩
  refine ⟨e, he, isDone_of_isEnd e hend ?_⟩
  by_contra herr
  rw [Bool.not_eq_false] at herr
  have hbroke : brokeOff (arrived p log) = true := by
    rw [arrived_eq_sent, brokeOff, List.any_map, List.any_eq_true]
    exact ⟨e, he, herr⟩
  exact absurd (hcalm.symm.trans (h.passed hnone hbroke)) Bool.false_ne_true

/-- The last `Done` is taken, and `Done` is delivered. -/
theorem Books.finish (h : Books publisher .looping s kinds log)
    (hu : s.upstreamSubscribers[p]? = some u) (e : StatusOr (Sigma T)) (hnext : u.next = some e)
    (hend : e.isEnd = true) (herr : e.isError = false) (hpos : 0 < s.requestBalance.balance)
    (hups : t.upstreamSubscribers =
      s.upstreamSubscribers.set p { u with next := none, attached := false })
    (hreq : t.requestBalance = s.requestBalance) (hdel : t.delivering = s.delivering)
    (hall : t.upstreamSubscribers.all (!·.attached) = true) :
    Books publisher (.past .finished) t kinds (.out (.onNext .done) :: log) := by
  have hlt : p < s.upstreamSubscribers.length := (List.getElem?_eq_some_iff.mp hu).1
  have hside := h.side p u hu
  rcases hside.spent e hnext hend with ⟨-, hbroke, hprogress, haccount⟩
  have halike : Alike p log (.out (.onNext .done) :: log) := Alike.of_same (same_out p _)
  have hsent : errorSent (.out (.onNext .done) :: log) = errorSent log := by
    have hrec : received (.out (.onNext .done) :: log) = received log ++ [.done] :=
      received_cons _ _
    rw [errorSent, hrec, List.any_append, errorSent]
    exact Bool.or_false _
  -- no error came before, for the loop would have stopped
  have hcalm : errorSent log = false := by
    rw [errorSent, List.any_eq_false]
    intro x hx hxe
    exact absurd ((h.running rfl x hx).symm.trans (StatusOr.isEnd_of_isError x hxe))
      Bool.false_ne_true
  refine h.close hu _ hups hreq hdel .done rfl .finished (fun i => by simp only [ne_eq,
    reduceCtorEq, not_false_eq_true]) ?_ (fun _ q hq => ?_) fun herror => ?_
  · refine ⟨hside.subscription, hprogress.alike halike, (fun x hx => (by cases hx)), fun _ => ?_,
      fun _ hb => ?_, fun hr => (by cases hr)⟩
    · rw [cameFrom_end p .done rfl, halike.sent, inHand_empty _ (.past .finished) _ rfl,
        haccount hcalm]
      exact (List.append_nil _).trans (List.append_nil _)
    · rw [halike.arrived] at hb
      exact absurd ((hbroke.trans herr).symm.trans hb) Bool.false_ne_true
  · -- there is demand, so all upstreams have been subscribed
    have hsub : subscribed log = true := by
      by_contra hno
      have hzero := h.early (by simpa only [Bool.not_eq_true] using hno)
      omega
    have hfull := h.full hsub
    have hsize := h.size
    -- the Done of `p` is the one just taken; of the others it was taken when they were
    -- detached
    by_cases hqp : q = p
    · refine ⟨_, by rw [hqp, hups, List.getElem?_set_self hlt], rfl, e, ?_, ?_⟩
      · exact hqp ▸ hside.held e hnext
      · exact isDone_of_isEnd e hend herr
    · have hqlt : q < s.upstreamSubscribers.length := by omega
      have hv := List.getElem?_eq_getElem hqlt
      have hv' : t.upstreamSubscribers[q]? = some s.upstreamSubscribers[q] := by
        rw [hups, List.getElem?_set_ne (Ne.symm hqp)]
        exact hv
      have hdet := List.all_eq_true.mp hall _ (List.mem_of_getElem? hv')
      rw [Bool.not_eq_true'] at hdet
      rcases (h.side q _ hv).done hcalm hdet with ⟨hnone, hin⟩
      exact ⟨_, hv', hnone, hin⟩
  · exact absurd herror Bool.false_ne_true

/-- The event of an upstream is taken, and what follows is done with it. -/
theorem books_consumeNext (h : Books publisher .looping s kinds log)
    (hu : s.upstreamSubscribers[p]? = some u) (hpos : 0 < s.requestBalance.balance) :
    (books publisher).Owes [] kinds log (s.consumeNext p u) := by
  have hlt : p < s.upstreamSubscribers.length := (List.getElem?_eq_some_iff.mp hu).1
  unfold consumeNext
  cases hnext : u.next with
  | none => exact books_fail _ _ _
  | some e =>
      simp only
      by_cases hend : e.isEnd = true
      · rw [if_pos hend]
        unfold upstreamEnded
        have hups : (((s.setUpstream p { u with next := none }).addAvailable (-1)).setUpstream p
            { u with next := none, attached := false }).upstreamSubscribers =
            s.upstreamSubscribers.set p { u with next := none, attached := false } :=
          List.set_set ..
        -- the three ways to end: an error, the last Done, a Done among others
        by_cases herr : e.isError = true
        · rw [if_pos herr]
          exact ⟨trivial, Or.inr ⟨.past .failed, rfl, rfl,
            h.error hu e hnext herr hups rfl rfl⟩⟩
        · rw [if_neg herr]
          rw [Bool.not_eq_true] at herr
          by_cases hall : (((s.setUpstream p { u with next := none }).addAvailable (-1)).setUpstream
              p { u with next := none, attached := false }).upstreamSubscribers.all
                (!·.attached) = true
          · rw [if_pos hall]
            exact ⟨trivial, Or.inr ⟨.past .finished, rfl, rfl,
              h.finish hu e hnext hend herr hpos hups rfl rfl hall⟩⟩
          · rw [if_neg hall]
            exact ⟨trivial, Or.inr ⟨.looping, rfl, rfl,
              h.spend hu e hnext hend herr hups rfl rfl⟩⟩
      · rw [if_neg hend]
        cases e with
        | status st hst => exact absurd (StatusOr.isEnd_status st hst) hend
        | value v =>
            have hside := h.side p u hu
            have hconf := (hside.holding _ hnext).1
            have hsubscription := hside.subscription
            rw [hconf, if_pos rfl] at hsubscription
            have htake : Books publisher (.consuming (.value v))
                ((s.setUpstream p { u with next := none }).addAvailable (-1)) kinds
                (.ask p (.request 1) :: log) := (h.take hu v hnext).same rfl rfl rfl
            rw [hsubscription] at htake ⊢
            exact ⟨trivial, Or.inr ⟨.consuming (.value v), rfl, rfl, htake⟩⟩

/-- One round of the loop. -/
theorem books_deliver (h : Books publisher .looping s kinds log) :
    (books publisher).Owes [] kinds log s.deliver := by
  unfold deliver
  by_cases hend : s.hasEnded = true
  · rw [if_pos hend]
    exact books_fail _ _ _
  · rw [if_neg hend]
    by_cases hcond : s.loopCondition = true
    · rw [if_pos hcond]
      rw [loopCondition, Bool.and_eq_true, decide_eq_true_eq, decide_eq_true_eq] at hcond
      have hnext : Books publisher .looping
          { s with currentIndex := (s.currentIndex + 1) % s.upstreamSubscribers.length } kinds
          log := h.same rfl rfl rfl
      simp only
      cases hu : s.upstreamSubscribers[s.currentIndex]? with
      | none => exact books_fail _ _ _
      | some u =>
          simp only
          by_cases hskip : (!u.attached || !u.hasNext) = true
          · rw [if_pos hskip]
            exact ⟨trivial, Or.inr ⟨.looping, rfl, rfl, hnext⟩⟩
          · rw [if_neg hskip]
            exact books_consumeNext hnext hu hcond.1
    · rw [if_neg hcond]
      exact ⟨trivial, Or.inr ⟨.quiet, rfl, rfl, h.goto rfl (fun e he => (by cases he)) rfl rfl rfl
        (fun _ => rfl) (fun i hi => (by cases hi))⟩⟩

/-- The value that has been taken is delivered. -/
theorem books_deliverEvent (e : StatusOr (Sigma T))
    (h : Books publisher (.consuming e) s kinds log) :
    (books publisher).Owes [] kinds log (s.deliverEvent e) := by
  unfold deliverEvent
  by_cases hend : s.hasEnded = true
  · rw [if_pos hend]
    exact books_fail _ _ _
  · rw [if_neg hend]
    cases hrem : s.requestBalance.remove 1 with
    | none => exact books_fail _ _ _
    | some b =>
        cases e with
        | status st hst =>
            exact absurd ((h.hand _ rfl).symm.trans (StatusOr.isEnd_status st hst))
              Bool.false_ne_true
        | value v =>
            exact ⟨trivial, Or.inr ⟨.delivered, rfl, rfl, h.hand_over v b hrem⟩⟩

/-- One round of the loop in `Cancel`, when an error has been delivered. -/
theorem books_cancelLoop (i : Nat) (h : Books publisher (.past (.cancelling i)) s kinds log) :
    (books publisher).Owes [] kinds log (s.cancelLoop i) := by
  have hover (a : After) (ha : ∀ j, a ≠ .cancelled j) : Books publisher (.past a) s kinds log :=
    h.goto rfl (fun e he => (by cases he)) h.flag rfl rfl (fun hr => (by cases hr))
      fun j hj => absurd (Loop.past.inj hj) (ha j)
  unfold cancelLoop
  by_cases hend : s.hasEnded = true
  · rw [if_pos hend]
    exact books_fail _ _ _
  · rw [if_neg hend]
    cases hu : s.upstreamSubscribers[i]? with
    | none =>
        exact books_release (l := .past .none) (s := { s with selfLock := false })
          ((hover .none fun j hj => (by cases hj)).same rfl rfl rfl) rfl
    | some u =>
        simp only
        by_cases hatt : u.attached = true
        · rw [if_pos hatt]
          have hside := h.side i u hu
          have hsize := h.size
          have hlt := (List.getElem?_eq_some_iff.mp hu).1
          cases hconf : confirmed i log with
          | false =>
              have hsubscription := hside.subscription
              rw [hconf, if_neg Bool.false_ne_true] at hsubscription
              rw [hsubscription]
              exact books_fail _ _ _
          | true =>
              have hsubscription := hside.subscription
              rw [hconf, if_pos rfl] at hsubscription
              rw [hsubscription]
              -- only an upstream that has confirmed is cancelled
              have hnote : Books publisher (.past (.cancelling i)) s kinds
                  (.ask i .cancel :: log) := by
                refine h.note ?_ (fun q => ?_) rfl rfl rfl
                · exact unmoved_cons _ rfl rfl rfl rfl fun q hq => same_ask (by omega) .cancel
                · refine alike_cons q _ rfl (ite_self _) rfl fun hno => ?_
                  rw [Entry.cancels, if_neg]
                  intro hq
                  exact absurd ((hq ▸ hno).symm.trans hconf) Bool.false_ne_true
              refine ⟨trivial, Or.inr ⟨.past (.cancelled i), rfl, rfl, ?_⟩⟩
              refine hnote.goto rfl (fun e he => (by cases he)) h.flag rfl rfl
                (fun hr => (by cases hr)) ?_
              intro j hj
              rw [← After.cancelled.inj (Loop.past.inj hj)]
              exact hconf
        · rw [if_neg hatt]
          exact ⟨trivial, Or.inr ⟨.past (.cancelling (i + 1)), rfl, rfl,
            hover _ fun j hj => (by cases hj)⟩⟩

/-- An upstream that has been cancelled is let go of. -/
theorem books_cancelNext (i : Nat) (h : Books publisher (.past (.cancelled i)) s kinds log) :
    (books publisher).Owes [] kinds log (s.cancelNext i) := by
  unfold cancelNext
  by_cases hend : s.hasEnded = true
  · rw [if_pos hend]
    exact books_fail _ _ _
  · rw [if_neg hend]
    cases hu : s.upstreamSubscribers[i]? with
    | none => exact books_fail _ _ _
    | some u =>
        have hside := h.side i u hu
        have hconf := h.cancelled i rfl
        have hnew : Side (.past (.cancelled i)) log i { u with attached := false } :=
          { hside with
            progress := hside.progress.pointers rfl
              (fun _ hno => absurd (hno.symm.trans hconf) Bool.false_ne_true) fun _ => rfl
            dropped := fun hr => (by cases hr) }
        have hset : Books publisher (.past (.cancelled i))
            (s.setUpstream i { u with attached := false }) kinds log :=
          h.replace unmoved_refl hu rfl rfl rfl hnew (fun q _ => alike_refl q) id (fun _ he => he)
            (fun hnone _ => hnone) fun hnone hbroke => ⟨hnone, hbroke⟩
        exact ⟨trivial, Or.inr ⟨.past (.cancelling (i + 1)), rfl, rfl, hset.goto rfl
          (fun e he => (by cases he)) h.flag rfl rfl (fun hr => (by cases hr))
          fun j hj => (by cases hj)⟩⟩

/-- A call at which the loop waits has returned. -/
theorem books_back (k : Point (Sigma T)) (frames : List (Point (Sigma T)))
    (h : Books publisher l s kinds log) (hframes : l.frames = k :: frames) (views : Nat → Bool) :
    (books publisher).Owes frames kinds log ((component T publisher).resume views s k) := by
  -- after an end is delivered the loop never runs again
  have hover (a : After) (ha : ∀ j, a ≠ .cancelled j) (hl : l.delivering = true)
      (hhand : l.inHand = []) : Books publisher (.past a) s kinds log :=
    h.goto hhand (fun e he => (by cases he)) (h.flag.trans hl) rfl rfl (fun hr => (by cases hr))
      fun j hj => absurd (Loop.past.inj hj) (ha j)
  -- the place to go on from tells what the loop was waiting for
  cases l with
  | quiet => cases hframes
  | looping => cases hframes
  | consuming e =>
      rcases List.cons.inj hframes with ⟨rfl, rfl⟩
      exact books_deliverEvent e h
  | delivered =>
      rcases List.cons.inj hframes with ⟨rfl, rfl⟩
      exact ⟨trivial, Or.inr ⟨.looping, rfl, rfl, h.goto rfl (fun e he => (by cases he)) h.flag rfl
        rfl (fun _ => rfl) fun i hi => (by cases hi)⟩⟩
  | past a =>
      cases a with
      | none => cases hframes
      | cancelling i => cases hframes
      | failed =>
          rcases List.cons.inj hframes with ⟨rfl, rfl⟩
          simp only [component]
          by_cases hend : s.hasEnded = true
          · rw [if_pos hend]
            exact books_fail _ _ _
          · rw [if_neg hend]
            exact ⟨trivial, Or.inr ⟨.past (.cancelling 0), rfl, rfl,
              hover _ (fun j hj => (by cases hj)) rfl rfl⟩⟩
      | finished =>
          rcases List.cons.inj hframes with ⟨rfl, rfl⟩
          simp only [component]
          by_cases hend : s.hasEnded = true
          · rw [if_pos hend]
            exact books_fail _ _ _
          · rw [if_neg hend]
            exact books_release (l := .past .none) (s := { s with selfLock := false })
              ((hover .none (fun j hj => (by cases hj)) rfl rfl).same rfl rfl rfl) rfl
      | cancelled i =>
          rcases List.cons.inj hframes with ⟨rfl, rfl⟩
          exact books_cancelNext i h

end Keeps

theorem books_init (publisher : MergePublisher ι) :
    Books publisher .quiet ({} : MergeStream (Sigma T)) [] [] :=
  { size := rfl
    room := Nat.zero_le _
    full := fun h => (by cases h)
    early := fun _ => rfl
    flag := rfl
    side := fun p u hu => (by cases hu)
    later := fun p _ => ⟨rfl, rfl, rfl, rfl, rfl⟩
    count := rfl
    hand := fun e he => (by cases he)
    limit := fun _ => ⟨(by decide : 0 < kMax), rfl⟩
    running := fun _ e he => absurd he List.not_mem_nil
    last := fun e he => absurd he List.not_mem_nil
    finished := fun e he => absurd he List.not_mem_nil
    failed := fun e he => absurd he List.not_mem_nil
    cancelled := fun i hi => (by cases hi) }

/-- The invariant holds of every reachable state in which no check has
    failed. -/
theorem books_reach {publisher : MergePublisher ι} (st : Open (component T publisher))
    (h : Open.Reach subscriptionCheck (Rules publisher) st) : (books publisher).Holds st := by
  refine Open.Modes.holds_reach _ _ _ ⟨Loop.quiet, rfl, rfl, books_init publisher⟩ ?_ ?_ ?_ ?_ ?_
    st h
  · intro st l c hl turn hok
    have hturn : l.turn = .outside := hl.turn.symm.trans turn
    have hbooks : Books publisher l st.state st.kinds st.log := hl.facts
    cases c with
    | subscribe =>
        refine books_subscribeNext (hbooks.note ?_ ?_ rfl rfl rfl) hturn
        · exact unmoved_cons _ rfl rfl rfl rfl fun q _ => same_call q .subscribe
        · exact fun q => Alike.of_same (same_call q .subscribe)
    | request n => exact books_request hbooks hturn n hok.1.1
    | cancel => exact absurd rfl hok.2
  · intro st l p i o hl turn hok hkind
    have hturn : l.turn = .outside := hl.turn.symm.trans turn
    have hbooks : Books publisher l st.state st.kinds st.log := hl.facts
    have hp : p < st.kinds.length := (List.getElem?_eq_some_iff.mp hkind).1
    cases o with
    | onSubscribe => exact books_onSubscribe hbooks hturn i hp
    | onNext e => exact books_onNext hbooks hturn i hp e hok.1 hok.2.2
    | destroy => exact books_destroyWrapper hbooks hturn i hp
  -- the setting up goes on; at every other point the loop waits
  · intro st l k hl turn _ _ hk
    have hturn : l.turn = .outside := hl.turn.symm.trans turn
    have hbooks : Books publisher l st.state st.kinds st.log := hl.facts
    cases k with
    | done => exact ⟨trivial, Or.inr ⟨l, hturn, rfl, hbooks⟩⟩
    | subscribing => exact books_subscribeNext hbooks hturn
    | confirmed =>
        exact books_release (s := { st.state with created := false }) (hbooks.same rfl rfl rfl)
          hturn
    | deliver => cases hk
    | consumed e => cases hk
    | delivered => cases hk
    | failed => cases hk
    | finished => cases hk
    | cancelling i => cases hk
    | cancelled i => cases hk
  · intro st l who k rest frames hl _ _ _ _ hframes
    exact books_back k frames hl.facts hframes st.views
  -- only the two loops have a next round
  · intro st l k hl turn _
    have hk : l.turn = .run k := hl.turn.symm.trans turn
    have hbooks : Books publisher l st.state st.kinds st.log := hl.facts
    cases l with
    | looping =>
        rw [← Turn.run.inj hk]
        exact books_deliver hbooks
    | quiet => cases hk
    | consuming e => cases hk
    | delivered => cases hk
    | past a =>
        cases a with
        | cancelling i =>
            rw [← Turn.run.inj hk]
            exact books_cancelLoop i hbooks
        | none => cases hk
        | failed => cases hk
        | finished => cases hk
        | cancelled i => cases hk

end MergeStream

end RxCppUniq
