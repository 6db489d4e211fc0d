import RxCppUniq.Flow.MergeCounter
import RxCppUniq.Flow.MergeShutdown

/-!
# No Upstream of Merge Starves

The loop of `MaybeDeliver` takes the upstreams in turn, and remembers where it
stopped when it returns. Between two events that it takes from one upstream it
passes every other one, and takes the event of one that holds an event.

What is compared is the number of rounds until the loop comes to an upstream.
After an event was taken from an upstream this number is the greatest there
is; every round lowers it for all of them alike. So an upstream that holds an
event is reached first, whatever else happens between the rounds, and the loop
does not pass one that holds an event.

The subscriber requests what it likes and does not cancel, and no upstream
sends an error.

## Main definitions

* `MergeStream.FairRules`: What the partners may do.
* `MergeStream.distance`: The rounds until the loop comes to an upstream.
* `MergeStream.Consumed`: A step consumes the event of a given upstream.
* `MergeStream.Passing`: A step that does not consume the event of a given
  upstream.
* `MergeStream.Takes`: The next round takes an event of a given upstream.
* `MergeStream.Steady`: Nobody loses an event, and the loop does not move.
* `MergeStream.Before`: One upstream is reached before another.

## Theorems

* `MergeStream.consumed_of_takes`, `MergeStream.takes_of_consumed`: The rounds
  that take an event are the steps that consume it.
* `MergeStream.before_step`: A step that does not take the event of the first
  leaves it so.
* `MergeStream.no_starvation`: Between two events of one upstream every other
  that holds an event has its turn.
-/

namespace RxCppUniq

open Theory

namespace MergeStream

variable {ι : Type} {T : ι → Type} {V : Type}

/-- The rules for the partners of a `MergeStream` of which no upstream fails. A
    request may be for any number of tokens. -/
def FairRules (publisher : MergePublisher ι) (st : Open (component T publisher)) :
    Move Call Bool ι (fun i => Signal (T i)) → Prop
  | .call .subscribe => st.log.isEmpty = true
  | .call (.request n) => subscribed st.log = true ∧ n ≤ kMax
  | .call .cancel => False
  | .said p _ s => Protocol.stream p st.log s ∧ s.event?.any (·.isError) = false
  | .reply => True
  | .view _ _ => True
  | .run => True

instance (publisher : MergePublisher ι) (st : Open (component T publisher))
    (m : Move Call Bool ι (fun i => Signal (T i))) : Decidable (FairRules publisher st m) :=
  match m with
  | .call .subscribe => inferInstanceAs (Decidable (_ = _))
  | .call (.request _) => inferInstanceAs (Decidable (_ ∧ _))
  | .call .cancel => inferInstanceAs (Decidable False)
  | .said _ _ _ => inferInstanceAs (Decidable (_ ∧ _))
  | .reply => inferInstanceAs (Decidable True)
  | .view _ _ => inferInstanceAs (Decidable True)
  | .run => inferInstanceAs (Decidable True)

/-- The points at which upstreams are cancelled, or are going to be. -/
def Point.stops : Point V → Bool
  | .done => false
  | .subscribing => false
  | .confirmed => false
  | .deliver => false
  | .consumed _ => false
  | .delivered => false
  | .failed => true
  | .finished => false
  | .cancelling _ => true
  | .cancelled _ => true

/-- All upstreams are there once anything is requested, the loop is at one of
    them, and none of them holds an error. -/
structure Sound (publisher : MergePublisher ι) (s : MergeStream (Sigma T))
    (log : Log (Sigma T) ι T) : Prop where
  size : s.upstreamSubscribers.length ≤ publisher.upstream.length
  full : subscribed log = true → s.upstreamSubscribers.length = publisher.upstream.length
  early : subscribed log = false → s.requestBalance.balance = 0
  index : s.currentIndex < s.upstreamSubscribers.length ∨ s.currentIndex = 0
  calm : ∀ u ∈ s.upstreamSubscribers, ∀ e, u.next = some e → e.isError = false

/-- The invariant. No upstream is ever cancelled. -/
def sound (publisher : MergePublisher ι) : Open.Spec (component T publisher) where
  Core s _ log := Sound publisher s log
  Frame k _ _ _ := k.stops = false
  Safe _ _ := True

/-- Nobody loses an event, and the loop does not move. -/
structure Steady (s t : MergeStream V) : Prop where
  index : t.currentIndex = s.currentIndex
  length : t.upstreamSubscribers.length = s.upstreamSubscribers.length
  holds : ∀ j, Holds s j → Holds t j

section Steady

theorem Steady.refl (s : MergeStream V) : Steady s s :=
  ⟨rfl, rfl, fun _ h => h⟩

theorem Steady.same {s t : MergeStream V} (hindex : t.currentIndex = s.currentIndex)
    (hups : t.upstreamSubscribers = s.upstreamSubscribers) : Steady s t :=
  ⟨hindex, congrArg List.length hups, fun j h => by rw [Holds, hups]; exact h⟩

/-- Another upstream subscriber is put in the place of one, and holds what that
    one held. -/
theorem Steady.setUpstream (s : MergeStream V) (p : Nat) (u u' : MergeUpstreamSubscriber V)
    (hu : s.upstreamSubscribers[p]? = some u) (hattached : u'.attached = u.attached)
    (hnext : u.hasNext = true → u'.hasNext = true) : Steady s (s.setUpstream p u') := by
  refine ⟨rfl, List.length_set, fun j h => ?_⟩
  by_cases hj : p = j
  · subst hj
    rcases h with ⟨v, hv, hatt, hhas⟩
    have heq : u = v := Option.some.inj (hu.symm.trans hv)
    have hlt := (List.getElem?_eq_some_iff.mp hu).1
    exact ⟨u', List.getElem?_set_self hlt, by rw [hattached, heq]; exact hatt,
      hnext (by rw [heq]; exact hhas)⟩
  · rcases h with ⟨v, hv, hatt, hhas⟩
    exact ⟨v, (List.getElem?_set_ne hj).trans hv, hatt, hhas⟩

/-- What is put in the place of one upstream subscriber, the others still hold
    their events. -/
theorem Holds.set_ne {s : MergeStream V} {j : Nat} (h : Holds s j) (p : Nat)
    (u' : MergeUpstreamSubscriber V) (hne : p ≠ j) : Holds (s.setUpstream p u') j := by
  rcases h with ⟨v, hv, hatt, hhas⟩
  exact ⟨v, (List.getElem?_set_ne hne).trans hv, hatt, hhas⟩

theorem steady_maybeDeliver (s : MergeStream V) :
    Steady s (s.maybeDeliver : Result ι V).1 := by
  unfold maybeDeliver
  split
  · exact .refl s
  · exact .same rfl rfl

theorem steady_release (s : MergeStream V) : Steady s (s.release : Result ι V).1 := by
  unfold release
  split
  · exact .refl s
  · exact .same rfl rfl

theorem Steady.trans {s t u : MergeStream V} (h : Steady s t) (h' : Steady t u) : Steady s u :=
  ⟨h'.index.trans h.index, h'.length.trans h.length, fun j hj => h'.holds j (h.holds j hj)⟩

theorem steady_onSubscribe (s : MergeStream V) (p : Nat) :
    Steady s (s.onSubscribe p : Result ι V).1 := by
  unfold onSubscribe
  cases hu : s.upstreamSubscribers[p]? with
  | none => exact .refl s
  | some u =>
      simp only
      split
      · exact .refl s
      · exact .setUpstream s p u _ hu rfl id

theorem steady_onNext (s : MergeStream V) (p : Nat) (e : StatusOr V) :
    Steady s (s.onNext p e : Result ι V).1 := by
  unfold onNext
  cases hu : s.upstreamSubscribers[p]? with
  | none => exact .refl s
  | some u =>
      simp only
      split
      · exact .refl s
      · have hset : Steady s (s.setUpstream p { u with next := some e }) :=
          .setUpstream s p u _ hu rfl fun _ => rfl
        unfold upstreamSubscriberStateChanged
        rw [if_pos (by decide)]
        have hadd : Steady s ((s.setUpstream p { u with next := some e }).addAvailable 1) :=
          hset.trans (.same rfl rfl)
        exact hadd.trans (steady_maybeDeliver _)

theorem steady_destroyWrapper (s : MergeStream V) (p : Nat) :
    Steady s (s.destroyWrapper p : Result ι V).1 := by
  unfold destroyWrapper
  cases hu : s.upstreamSubscribers[p]? with
  | none => exact .refl s
  | some u =>
      exact (Steady.setUpstream s p u { u with wrapped := false } hu rfl id).trans
        (steady_release _)

theorem steady_deliverEvent (s : MergeStream V) (e : StatusOr V) :
    Steady s (s.deliverEvent e : Result ι V).1 := by
  unfold deliverEvent
  split
  · exact .refl s
  · split
    · exact .refl s
    · exact .same rfl rfl

/-- Once all upstreams are there none is added. -/
theorem steady_subscribeNext (publisher : MergePublisher ι) (s : MergeStream V)
    (hfull : s.upstreamSubscribers.length = publisher.upstream.length) :
    Steady s (subscribeNext publisher s : Result ι V).1 := by
  unfold subscribeNext
  rw [hfull, List.getElem?_eq_none (Nat.le_refl _)]
  exact .refl s

/-- An upstream keeps its event when another one is subscribed. -/
theorem holds_subscribeNext (publisher : MergePublisher ι) (s : MergeStream V) (p : Nat)
    (h : Holds s p) : Holds (subscribeNext publisher s : Result ι V).1 p := by
  rcases h with ⟨u, hu, hholds⟩
  unfold subscribeNext
  cases publisher.upstream[s.upstreamSubscribers.length]? with
  | none => exact ⟨u, hu, hholds⟩
  | some i =>
      have hlt := (List.getElem?_eq_some_iff.mp hu).1
      exact ⟨u, (List.getElem?_append_left hlt).trans hu, hholds⟩

/-- `ConsumeNext` leaves the loop where it is. -/
theorem consumeNext_place (s : MergeStream V) (c : Nat) (u : MergeUpstreamSubscriber V) :
    (s.consumeNext c u : Result ι V).1.currentIndex = s.currentIndex ∧
      (s.consumeNext c u : Result ι V).1.upstreamSubscribers.length =
        s.upstreamSubscribers.length := by
  have hlength (t : MergeStream V) (u' : MergeUpstreamSubscriber V) :
      (t.setUpstream c u').upstreamSubscribers.length = t.upstreamSubscribers.length :=
    List.length_set
  unfold consumeNext
  cases u.next with
  | none => exact ⟨rfl, rfl⟩
  | some event =>
      simp only
      split
      · unfold upstreamEnded
        simp only
        have htwice := (hlength ((s.setUpstream c { u with next := none }).addAvailable (-1))
          { u with next := none, attached := false }).trans (hlength s { u with next := none })
        split
        · exact ⟨rfl, htwice⟩
        · split
          · exact ⟨rfl, htwice⟩
          · exact ⟨rfl, htwice⟩
      · split
        · exact ⟨rfl, hlength s _⟩
        · exact ⟨rfl, hlength s _⟩

/-- `ConsumeNext` takes no event of another upstream. -/
theorem holds_consumeNext (s : MergeStream V) (c : Nat) (u : MergeUpstreamSubscriber V) (p : Nat)
    (h : Holds s p) (hne : c ≠ p) : Holds (s.consumeNext c u : Result ι V).1 p := by
  unfold consumeNext
  cases u.next with
  | none => exact h
  | some event =>
      have htaken : Holds ((s.setUpstream c { u with next := none }).addAvailable (-1)) p :=
        h.set_ne c { u with next := none } hne
      simp only
      split
      · have hgone := htaken.set_ne c { u with next := none, attached := false } hne
        unfold upstreamEnded
        simp only
        split
        · exact hgone
        · split
          · exact hgone
          · exact hgone
      · split
        · exact htaken
        · exact htaken

/-- A round takes at most the event of the upstream it is at. -/
theorem holds_deliver (s : MergeStream V) (p : Nat) (h : Holds s p)
    (hnot : s.hasEnded = false → s.loopCondition = true → s.currentIndex ≠ p) :
    Holds (s.deliver : Result ι V).1 p := by
  unfold MergeStream.deliver
  by_cases hended : s.hasEnded = true
  · rw [if_pos hended]
    exact h
  · rw [if_neg hended]
    rw [Bool.not_eq_true] at hended
    by_cases hcond : s.loopCondition = true
    · rw [if_pos hcond]
      simp only
      cases s.upstreamSubscribers[s.currentIndex]? with
      | none => exact h
      | some u =>
          simp only
          split
          · exact h
          · exact holds_consumeNext _ _ u p h (hnot hended hcond)
    · rw [if_neg hcond]
      exact h

end Steady

section Keeps

variable {publisher : MergePublisher ι} {s : MergeStream (Sigma T)} {kinds : List ι}
  {before log : Log (Sigma T) ι T}

theorem sound_keeps {r : Result ι (Sigma T)}
    (hnext : ∀ k, r.2.next = some k → k.stops = false)
    (h : (∃ msg, r.2 = .fail msg) ∨ Sound publisher r.1 (r.2.log kinds log)) :
    (sound publisher).Keeps s kinds before log r :=
  ⟨trivial, h, hnext, fun _ _ hk => hk⟩

theorem sound_fails (t : MergeStream (Sigma T)) (msg : String) :
    (sound publisher).Keeps s kinds before log (t, .fail msg) :=
  sound_keeps (fun k hk => (by cases hk)) (Or.inl ⟨msg, rfl⟩)

/-- A piece of code that ends without a point or with one at which nothing is
    cancelled. -/
theorem sound_stops (t : MergeStream (Sigma T))
    (a : Act Call (Signal (Sigma T)) ι (Point (Sigma T))) (k : Point (Sigma T))
    (hk : k.stops = false) (ha : a.next = none ∨ a.next = some k)
    (h : Sound publisher t (a.log kinds log)) :
    (sound publisher).Keeps s kinds before log (t, a) := by
  refine sound_keeps (fun k' hk' => ?_) (Or.inr h)
  rcases ha with hnone | hsome
  · exact absurd (hk'.symm.trans hnone) (Option.some_ne_none k')
  · rw [Option.some.inj (hk'.symm.trans hsome)]
    exact hk

/-- An entry that does not confirm the subscription. -/
theorem Sound.note (h : Sound publisher s log) (n : Entry (Sigma T) ι T)
    (hn : n.subscribes = false) : Sound publisher s (n :: log) := by
  have hsub : subscribed (n :: log) = subscribed log := by
    rw [subscribed_cons, hn, Bool.false_or]
  exact ⟨h.size, fun hyes => h.full (hsub ▸ hyes), fun hno => h.early (hsub ▸ hno), h.index, h.calm⟩

/-- Code by which the loop does not move. -/
theorem Sound.steady (h : Sound publisher s log) (t : MergeStream (Sigma T)) (hs : Steady s t)
    (hearly : subscribed log = false → t.requestBalance.balance = 0)
    (hcalm : ∀ u ∈ t.upstreamSubscribers, ∀ e, u.next = some e → e.isError = false) :
    Sound publisher t log := by
  refine ⟨?_, fun hyes => ?_, hearly, ?_, hcalm⟩
  · rw [hs.length]
    exact h.size
  · rw [hs.length]
    exact h.full hyes
  · rw [hs.length, hs.index]
    exact h.index

/-- The same upstreams and the same demand. -/
theorem Sound.same (h : Sound publisher s log) (t : MergeStream (Sigma T))
    (hindex : t.currentIndex = s.currentIndex)
    (hups : t.upstreamSubscribers = s.upstreamSubscribers)
    (hbalance : t.requestBalance = s.requestBalance) : Sound publisher t log :=
  h.steady t (.same hindex hups) (fun hno => hbalance ▸ h.early hno) (hups ▸ h.calm)

/-- Another upstream subscriber in the place of one, which holds no error. -/
theorem Sound.setUpstream (h : Sound publisher s log) (p : Nat)
    (u' : MergeUpstreamSubscriber (Sigma T))
    (hcalm : ∀ e, u'.next = some e → e.isError = false) :
    Sound publisher (s.setUpstream p u') log := by
  refine ⟨?_, fun hyes => ?_, h.early, ?_, fun v hv => ?_⟩
  · rw [MergeStream.setUpstream, List.length_set]
    exact h.size
  · rw [MergeStream.setUpstream, List.length_set]
    exact h.full hyes
  · rw [MergeStream.setUpstream, List.length_set]
    exact h.index
  · rcases List.mem_or_eq_of_mem_set hv with hold | rfl
    · exact h.calm v hold
    · exact hcalm

theorem sound_maybeDeliver (h : Sound publisher s log) (t : MergeStream (Sigma T))
    (hindex : t.currentIndex = s.currentIndex)
    (hups : t.upstreamSubscribers = s.upstreamSubscribers)
    (hearly : subscribed log = false → t.requestBalance.balance = 0)
    {s' : MergeStream (Sigma T)} :
    (sound publisher).Keeps s' kinds before log (t.maybeDeliver : Result ι (Sigma T)) := by
  have ht : Sound publisher t log := h.steady t (.same hindex hups) hearly (hups ▸ h.calm)
  unfold maybeDeliver
  split
  · exact sound_stops t .ret .done rfl (Or.inl rfl) ht
  · exact sound_stops _ (.goto .deliver) .deliver rfl (Or.inr rfl) (ht.same _ rfl rfl rfl)

theorem sound_release {t : MergeStream (Sigma T)} (h : Sound publisher t log) :
    (sound publisher).Keeps s kinds before log (t.release : Result ι (Sigma T)) := by
  unfold release
  split
  · exact sound_stops t .ret .done rfl (Or.inl rfl) h
  · exact sound_stops _ (.out .destroy .done) .done rfl (Or.inr rfl)
      ((h.same { t with hasEnded := true } rfl rfl rfl).note (.out .destroy) rfl)

/-- An upstream is added, or the subscription is confirmed. -/
theorem sound_subscribeNext {t : MergeStream (Sigma T)} (h : Sound publisher t log) :
    (sound publisher).Keeps s kinds before log
      (subscribeNext publisher t : Result ι (Sigma T)) := by
  unfold subscribeNext
  cases hnext : publisher.upstream[t.upstreamSubscribers.length]? with
  | none =>
      have hge : publisher.upstream.length ≤ t.upstreamSubscribers.length :=
        List.getElem?_eq_none_iff.mp hnext
      refine sound_stops t (.out .onSubscribe .confirmed) .confirmed rfl (Or.inr rfl)
        ⟨h.size, fun _ => Nat.le_antisymm h.size hge, fun hno => ?_, h.index, h.calm⟩
      rw [Act.log, subscribed_cons, Entry.subscribes, Bool.true_or] at hno
      cases hno
  | some i =>
      have hlt := (List.getElem?_eq_some_iff.mp hnext).1
      have hnote := h.note (.ask kinds.length .subscribe) rfl
      refine sound_stops _ (.make i .subscribe .subscribing) .subscribing rfl (Or.inr rfl)
        ⟨?_, fun hyes => ?_, hnote.early, ?_, fun u hu e he => ?_⟩
      · rw [List.length_append]
        exact hlt
      · have hfull := hnote.full hyes
        omega
      · rw [List.length_append]
        exact h.index.imp (fun hin => Nat.lt_add_right 1 hin) id
      · rcases List.mem_append.mp hu with hold | hnew
        · exact h.calm u hold e he
        · rw [List.mem_singleton.mp hnew] at he
          cases he

theorem sound_onSubscribe (h : Sound publisher s log) (p : Nat) (i : ι) :
    (sound publisher).Keeps s kinds log (.said p i .onSubscribe :: log)
      (s.onSubscribe p : Result ι (Sigma T)) := by
  have hsaid := h.note (.said p i .onSubscribe) rfl
  unfold onSubscribe
  cases hu : s.upstreamSubscribers[p]? with
  | none => exact sound_fails s _
  | some u =>
      simp only
      split
      · exact sound_fails s _
      · have hset := hsaid.setUpstream p { u with upstreamSubscription := some p }
          (hsaid.calm u (List.mem_of_getElem? hu))
        exact sound_stops _ (.ask p (.request 1) .done) .done rfl (Or.inr rfl)
          (hset.note (.ask p (.request 1)) rfl)

theorem sound_onNext (h : Sound publisher s log) (p : Nat) (i : ι) (e : StatusOr (T i))
    (he : (inVariant i e : StatusOr (Sigma T)).isError = false) :
    (sound publisher).Keeps s kinds log (.said p i (.onNext e) :: log)
      (s.onNext p (inVariant i e) : Result ι (Sigma T)) := by
  have hsaid := h.note (.said p i (.onNext e)) rfl
  unfold onNext
  cases hu : s.upstreamSubscribers[p]? with
  | none => exact sound_fails s _
  | some u =>
      simp only
      split
      · exact sound_fails s _
      · have hset := hsaid.setUpstream p { u with next := some (inVariant i e) }
          fun x hx => (Option.some.inj hx) ▸ he
        unfold upstreamSubscriberStateChanged
        rw [if_pos (by decide)]
        exact sound_maybeDeliver hset
          ((s.setUpstream p { u with next := some (inVariant i e) }).addAvailable 1) rfl rfl
          hset.early

theorem sound_destroyWrapper (h : Sound publisher s log) (p : Nat) (i : ι) :
    (sound publisher).Keeps s kinds log (.said p i .destroy :: log)
      (s.destroyWrapper p : Result ι (Sigma T)) := by
  have hsaid := h.note (.said p i .destroy) rfl
  unfold destroyWrapper
  cases hu : s.upstreamSubscribers[p]? with
  | none => exact sound_fails s _
  | some u =>
      exact sound_release (hsaid.setUpstream p { u with wrapped := false }
        (hsaid.calm u (List.mem_of_getElem? hu)))

theorem sound_deliverEvent (h : Sound publisher s log) (e : StatusOr (Sigma T)) :
    (sound publisher).Keeps s kinds log log (s.deliverEvent e : Result ι (Sigma T)) := by
  unfold deliverEvent
  split
  · exact sound_fails s _
  · cases hremove : s.requestBalance.remove 1 with
    | none => exact sound_fails s _
    | some b =>
        have hle := RequestBalance.balance_remove_le _ _ _ hremove
        have hspent : Sound publisher { s with requestBalance := b } log := by
          refine h.steady _ (.same rfl rfl) (fun hno => ?_) h.calm
          have hzero := h.early hno
          exact Nat.eq_zero_of_le_zero (Nat.le_trans hle (Nat.le_of_eq hzero))
        exact sound_stops _ (.out (.onNext e) .delivered) .delivered rfl (Or.inr rfl)
          (hspent.note (.out (.onNext e)) rfl)

/-- An event is taken, which is no error. -/
theorem sound_consumeNext {s' : MergeStream (Sigma T)} (h : Sound publisher s log) (c : Nat)
    (u : MergeUpstreamSubscriber (Sigma T)) (hu : s.upstreamSubscribers[c]? = some u) :
    (sound publisher).Keeps s' kinds log log (s.consumeNext c u : Result ι (Sigma T)) := by
  unfold consumeNext
  cases hnext : u.next with
  | none => exact sound_fails _ _
  | some event =>
      have hcalm := h.calm u (List.mem_of_getElem? hu) event hnext
      have htaken : Sound publisher ((s.setUpstream c { u with next := none }).addAvailable (-1))
          log :=
            (h.setUpstream c { u with next := none } fun e he => (by cases he)).same _ rfl rfl rfl
      simp only
      split
      · have hgone := htaken.setUpstream c { u with next := none, attached := false }
          fun e he => (by cases he)
        unfold upstreamEnded
        simp only
        rw [if_neg (by rw [hcalm]; exact Bool.false_ne_true)]
        split
        · exact sound_stops _ (.out (.onNext .done) .finished) .finished rfl (Or.inr rfl)
            (hgone.note (.out (.onNext .done)) rfl)
        · exact sound_stops _ (.goto .deliver) .deliver rfl (Or.inr rfl) hgone
      · split
        · exact sound_fails _ _
        · next p _ =>
            exact sound_stops _ (.ask p (.request 1) (.consumed event)) (.consumed event) rfl
              (Or.inr rfl) (htaken.note (.ask p (.request 1)) rfl)

/-- One round of the loop, after which it is at the next upstream. -/
theorem sound_deliver (h : Sound publisher s log) :
    (sound publisher).Keeps s kinds log log (s.deliver : Result ι (Sigma T)) := by
  unfold deliver
  split
  · exact sound_fails s _
  · split
    · simp only
      cases hu : s.upstreamSubscribers[s.currentIndex]? with
      | none => exact sound_fails _ _
      | some u =>
          have hlt := (List.getElem?_eq_some_iff.mp hu).1
          have hmoved : Sound publisher { s with
              currentIndex := (s.currentIndex + 1) % s.upstreamSubscribers.length } log :=
            ⟨h.size, h.full, h.early, Or.inl (Nat.mod_lt _ (by omega)), h.calm⟩
          simp only
          split
          · exact sound_stops _ (.goto .deliver) .deliver rfl (Or.inr rfl) hmoved
          · exact sound_consumeNext hmoved s.currentIndex u hu
    · exact sound_stops _ .ret .done rfl (Or.inl rfl) (h.same { s with delivering := false } rfl
        rfl rfl)

end Keeps

variable {publisher : MergePublisher ι}

theorem isError_inVariant (i : ι) (e : StatusOr (T i)) (h : e.isError = false) :
    (inVariant i e : StatusOr (Sigma T)).isError = false := by
  cases e with
  | value v => rfl
  | status s hs => exact h

/-- The invariant holds of every reachable state. -/
theorem sound_reach (st : Open (component T publisher))
    (h : Open.Reach subscriptionCheck (FairRules publisher) st) : (sound publisher).Holds st := by
  refine (sound publisher).holds_reach subscriptionCheck (FairRules publisher)
    ⟨Nat.zero_le _, fun hyes => (by cases hyes), fun _ => rfl, Or.inr rfl,
      fun u hu => (by cases hu)⟩ ?_ ?_ ?_ st h
  · intro st c _ hok _ hsound
    have hcalled : Sound publisher st.state (.call c :: st.log) := hsound.note (.call c) rfl
    cases c with
    | subscribe => exact sound_subscribeNext (hcalled.same _ rfl rfl rfl)
    | request n =>
        exact sound_maybeDeliver hcalled
          { st.state with requestBalance := st.state.requestBalance.add n } rfl rfl
          fun hno => absurd (hno.symm.trans hok.1) Bool.false_ne_true
    | cancel => exact hok.elim
  · intro st p i o _ hok _ hsound
    cases o with
    | onSubscribe => exact sound_onSubscribe hsound p i
    | onNext e => exact sound_onNext hsound p i e (isError_inVariant i e hok.2)
    | destroy => exact sound_destroyWrapper hsound p i
  · intro st k _ _ hsound hstops
    have hs : Sound publisher st.state st.log := hsound
    -- no error and no Cancel, so nothing is shut down
    have hframe : k.stops = false := hstops
    cases k with
    | done => exact sound_stops _ .ret .done rfl (Or.inl rfl) hs
    | subscribing => exact sound_subscribeNext hs
    | confirmed => exact sound_release (hs.same { st.state with created := false } rfl rfl rfl)
    | deliver => exact sound_deliver hs
    | consumed e => exact sound_deliverEvent hs e
    | delivered => exact sound_stops _ (.goto .deliver) .deliver rfl (Or.inr rfl) hs
    | failed => cases hframe
    | finished =>
        simp only [component]
        split
        · exact sound_fails _ _
        · exact sound_release (hs.same { st.state with selfLock := false } rfl rfl rfl)
    | cancelling i => cases hframe
    | cancelled i => cases hframe

/-- The step from `st` to `st'` consumes the event that is held for the upstream
    at position `p`: it is not held any more. A value is handed on, to be
    delivered once the request for the next one has returned, unless the check
    of the request fails. After an end the stream lets go of the upstream's
    subscriber. -/
structure Consumed (p : Nat) (e : StatusOr (Sigma T)) (st st' : Open (component T publisher)) :
    Prop where
  held : ∃ u, st.state.upstreamSubscribers[p]? = some u ∧ u.attached = true ∧ u.next = some e
  emptied : ∃ u, st'.state.upstreamSubscribers[p]? = some u ∧ u.next = none ∧
    u.attached = !e.isEnd
  handed : e.isEnd = false →
    st'.turn.isFailed = true ∨ ∃ who, st'.stack.head? = some (who, .consumed e)

/-- A step of a run in which the event of the upstream at position `j` is not
    consumed. -/
def Passing (publisher : MergePublisher ι) (j : Nat) (st st' : Open (component T publisher)) :
    Prop :=
  Open.Step subscriptionCheck (FairRules publisher) st st' ∧ ∀ e, ¬ Consumed j e st st'

/-- The rounds until the loop comes to the upstream at position `p`. -/
def distance (s : MergeStream V) (p : Nat) : Nat :=
  if s.currentIndex ≤ p then p - s.currentIndex
  else p + s.upstreamSubscribers.length - s.currentIndex

/-- The next round takes an event of the upstream at position `i`. -/
def Takes (i : Nat) (st : Open (component T publisher)) : Prop :=
  Consumes st ∧ st.state.currentIndex = i

/-- The rules under which the event of the upstream at position `j` is not
    taken. -/
def Sparing (publisher : MergePublisher ι) (j : Nat) (st : Open (component T publisher))
    (m : Move Call Bool ι (fun i => Signal (T i))) : Prop :=
  FairRules publisher st m ∧ ¬ Takes j st

instance (s : MergeStream V) (i : Nat) : Decidable (Holds s i) :=
  decidable_of_iff
    ((s.upstreamSubscribers[i]?.any fun u => u.attached && u.hasNext) = true) (by
      simp only [Option.any_eq_true, Bool.and_eq_true, Holds])

instance (i : Nat) (st : Open (component T publisher)) : Decidable (Takes i st) :=
  decidable_of_iff (atLoopHead st.turn = true ∧ st.state.hasEnded = false ∧
      st.state.loopCondition = true ∧ Holds st.state st.state.currentIndex ∧
      st.state.currentIndex = i) (by
    constructor
    · rintro ⟨hhead, hended, hcond, hholds, hindex⟩
      exact ⟨⟨eq_of_atLoopHead st.turn hhead, hended, hcond, hholds⟩, hindex⟩
    · rintro ⟨⟨hturn, hended, hcond, hholds⟩, hindex⟩
      exact ⟨by rw [hturn]; rfl, hended, hcond, hholds, hindex⟩)

instance (publisher : MergePublisher ι) (j : Nat) (st : Open (component T publisher))
    (m : Move Call Bool ι (fun i => Signal (T i))) : Decidable (Sparing publisher j st m) :=
  inferInstanceAs (Decidable (_ ∧ ¬ _))

/-- The upstream at position `j` holds an event, and the loop comes to it before
    it comes to the one at position `i`. -/
structure Before (publisher : MergePublisher ι) (j i : Nat) (s : MergeStream V) : Prop where
  full : s.upstreamSubscribers.length = publisher.upstream.length
  index : s.currentIndex < s.upstreamSubscribers.length
  room : i < s.upstreamSubscribers.length
  holds : Holds s j
  earlier : distance s j < distance s i

section Before

variable {s t : MergeStream V} {i j : Nat}

theorem Before.steady (h : Before publisher j i s) (hs : Steady s t) : Before publisher j i t := by
  have hdistance (p : Nat) : distance t p = distance s p := by
    rw [distance, distance, hs.index, hs.length]
  refine ⟨hs.length.trans h.full, ?_, ?_, hs.holds j h.holds, ?_⟩
  · rw [hs.index, hs.length]
    exact h.index
  · rw [hs.length]
    exact h.room
  · rw [hdistance, hdistance]
    exact h.earlier

theorem Before.room_left (h : Before publisher j i s) : j < s.upstreamSubscribers.length := by
  rcases h.holds with ⟨u, hu, -⟩
  exact (List.getElem?_eq_some_iff.mp hu).1

/-- A round at another upstream brings the loop nearer to both. -/
theorem Before.moved (h : Before publisher j i s) (hne : s.currentIndex ≠ j) :
    Before publisher j i
      { s with currentIndex := (s.currentIndex + 1) % s.upstreamSubscribers.length } := by
  have hindex := h.index
  have hroom := h.room
  have hleft := h.room_left
  have hearlier := h.earlier
  refine ⟨h.full, Nat.mod_lt _ (by omega), h.room, h.holds, ?_⟩
  unfold distance at hearlier ⊢
  simp only
  by_cases hlast : s.currentIndex + 1 < s.upstreamSubscribers.length
  · rw [Nat.mod_eq_of_lt hlast]
    split at hearlier <;> split at hearlier <;> split <;> split <;> omega
  · have heq : s.currentIndex + 1 = s.upstreamSubscribers.length := by omega
    rw [heq, Nat.mod_self]
    split at hearlier <;> split at hearlier <;> split <;> split <;> omega

theorem Before.consumeNext (h : Before publisher j i s) (c : Nat) (u : MergeUpstreamSubscriber V)
    (hne : c ≠ j) : Before publisher j i (s.consumeNext c u : Result ι V).1 := by
  rcases consumeNext_place (ι := ι) s c u with ⟨hindex, hlength⟩
  refine ⟨hlength.trans h.full, ?_, hlength ▸ h.room, holds_consumeNext s c u j h.holds hne, ?_⟩
  · rw [hindex, hlength]
    exact h.index
  · unfold distance
    rw [hindex, hlength]
    exact h.earlier

/-- A round of the loop that does not take the event leaves the upstream where
    it was in the order. -/
theorem Before.deliver (h : Before publisher j i s)
    (hne : s.hasEnded = false → s.loopCondition = true → s.currentIndex ≠ j) :
    Before publisher j i (s.deliver : Result ι V).1 := by
  unfold MergeStream.deliver
  by_cases hended : s.hasEnded = true
  · rw [if_pos hended]
    exact h
  · rw [if_neg hended]
    rw [Bool.not_eq_true] at hended
    by_cases hcond : s.loopCondition = true
    · rw [if_pos hcond]
      have hmoved := h.moved (hne hended hcond)
      simp only
      cases s.upstreamSubscribers[s.currentIndex]? with
      | none => exact hmoved
      | some u =>
          simp only
          split
          · exact hmoved
          · exact hmoved.consumeNext s.currentIndex u (hne hended hcond)
    · rw [if_neg hcond]
      exact h.steady (.same rfl rfl)

end Before

section Waiting

variable {V : Type}

/-- A piece of code that does not wait for a call at the loop head. -/
def Clear (r : Result ι V) : Prop :=
  ∀ k, r.2.waits = some k → k ≠ .deliver

theorem clear_maybeDeliver (s : MergeStream V) : Clear (s.maybeDeliver : Result ι V) := by
  unfold maybeDeliver
  split <;> exact fun k hk => (by cases hk)

theorem clear_release (s : MergeStream V) : Clear (s.release : Result ι V) := by
  unfold release
  split
  · exact fun k hk => (by cases hk)
  · exact fun k hk heq => (by cases hk; cases heq)

theorem clear_subscribeNext (publisher : MergePublisher ι) (s : MergeStream V) :
    Clear (subscribeNext publisher s : Result ι V) := by
  unfold subscribeNext
  split
  · exact fun k hk heq => (by cases hk; cases heq)
  · exact fun k hk heq => (by cases hk; cases heq)

theorem clear_consumeNext (s : MergeStream V) (c : Nat) (u : MergeUpstreamSubscriber V) :
    Clear (s.consumeNext c u : Result ι V) := by
  unfold consumeNext
  cases u.next with
  | none => exact fun k hk => (by cases hk)
  | some event =>
      simp only
      split
      · unfold upstreamEnded
        simp only
        split
        · exact fun k hk heq => (by cases hk; cases heq)
        · split
          · exact fun k hk heq => (by cases hk; cases heq)
          · exact fun k hk => (by cases hk)
      · split
        · exact fun k hk => (by cases hk)
        · exact fun k hk heq => (by cases hk; cases heq)

theorem clear_deliver (s : MergeStream V) : Clear (s.deliver : Result ι V) := by
  unfold deliver
  split
  · exact fun k hk => (by cases hk)
  · split
    · simp only
      split
      · exact fun k hk => (by cases hk)
      · split
        · exact fun k hk => (by cases hk)
        · exact clear_consumeNext _ _ _
    · exact fun k hk => (by cases hk)

theorem clear_said (s : MergeStream (Sigma T)) (views : Nat → Bool) (p : Nat) (i : ι)
    (o : Signal (T i)) : Clear ((component T publisher).said views s p i o) := by
  cases o with
  | onSubscribe =>
      simp only [onSubscribe]
      split
      · exact fun k hk => (by cases hk)
      · split
        · exact fun k hk => (by cases hk)
        · exact fun k hk heq => (by cases hk; cases heq)
  | onNext e =>
      simp only [onNext]
      split
      · exact fun k hk => (by cases hk)
      · split
        · exact fun k hk => (by cases hk)
        · unfold upstreamSubscriberStateChanged
          rw [if_pos (by decide)]
          exact clear_maybeDeliver _
  | destroy =>
      simp only [destroyWrapper]
      split
      · exact fun k hk => (by cases hk)
      · exact clear_release _

theorem clear_resume (s : MergeStream (Sigma T)) (views : Nat → Bool) (k : Point (Sigma T)) :
    Clear ((component T publisher).resume views s k) := by
  cases k with
  | done => exact fun k hk => (by cases hk)
  | subscribing => exact clear_subscribeNext publisher s
  | confirmed => exact clear_release _
  | deliver => exact clear_deliver s
  | consumed e =>
      simp only [deliverEvent]
      split
      · exact fun k hk => (by cases hk)
      · split
        · exact fun k hk => (by cases hk)
        · exact fun k hk heq => (by cases hk; cases heq)
  | delivered => exact fun k hk => (by cases hk)
  | failed =>
      dsimp only
      split <;> exact fun k hk => (by cases hk)
  | finished =>
      dsimp only
      split
      · exact fun k hk => (by cases hk)
      · exact clear_release _
  | cancelling i =>
      simp only [cancelLoop]
      split
      · exact fun k hk => (by cases hk)
      · split
        · exact clear_release _
        · split
          · split
            · exact fun k hk => (by cases hk)
            · exact fun k hk heq => (by cases hk; cases heq)
          · exact fun k hk => (by cases hk)
  | cancelled i =>
      simp only [cancelNext]
      split
      · exact fun k hk => (by cases hk)
      · split <;> exact fun k hk => (by cases hk)

/-- The loop head is never on the stack. -/
theorem clear_reach {allow : Open (component T publisher) →
      Move Call Bool ι (fun i => Signal (T i)) → Prop} (st : Open (component T publisher))
    (h : Open.Reach subscriptionCheck allow st) :
    ∀ f ∈ st.stack, f.2 ≠ (.deliver : Point (Sigma T)) := by
  refine Open.Reach.waiting (fun k => k ≠ (.deliver : Point (Sigma T))) ?_ st h
  intro st r _ hruns k hk
  cases hruns with
  | call c _ _ =>
      cases c with
      | subscribe => exact clear_subscribeNext publisher _ k hk
      | request n => exact clear_maybeDeliver _ k hk
      | cancel => cases hk
  | said p i o _ _ _ => exact clear_said _ _ p i o k hk
  | resume k' _ => exact clear_resume _ _ k' k hk

end Waiting

/-- What a step does to the upstreams: it is a round of the loop, or another
    upstream is subscribed, or nobody loses an event. -/
theorem step_cases {st st' : Open (component T publisher)}
    (hreach : Open.Reach subscriptionCheck (FairRules publisher) st)
    (hstep : Open.Step subscriptionCheck (FairRules publisher) st st') :
    (st.turn = .run .deliver ∧ st'.state = (st.state.deliver : Result ι (Sigma T)).1) ∨
      (∃ t, Steady st.state t ∧ st'.state = (subscribeNext publisher t : Result ι (Sigma T)).1) ∨
      Steady st.state st'.state := by
  -- a piece of code goes on after a call or as the next round of the loop
  have hresume (k : Point (Sigma T)) (hresumes : Open.Resumes (FairRules publisher) st k) :
      (st.turn = .run .deliver ∧ ((component T publisher).resume st.views st.state k).1 =
          (st.state.deliver : Result ι (Sigma T)).1) ∨
        (∃ t, Steady st.state t ∧ ((component T publisher).resume st.views st.state k).1 =
          (subscribeNext publisher t : Result ι (Sigma T)).1) ∨
        Steady st.state ((component T publisher).resume st.views st.state k).1 := by
    have hframe : k.stops = false := (sound_reach st hreach).resumed hresumes
    cases k with
    | done => exact Or.inr (Or.inr (.refl _))
    | subscribing => exact Or.inr (Or.inl ⟨st.state, .refl _, rfl⟩)
    | confirmed =>
        have hsame : Steady st.state { st.state with created := false } := .same rfl rfl
        exact Or.inr (Or.inr (hsame.trans (steady_release _)))
    | deliver =>
        -- no call returns to the head of the loop
        rcases hresumes with ⟨-, -, who, rest, htop⟩ | ⟨hrun, -⟩
        · exact absurd rfl (clear_reach st hreach (who, .deliver) (htop ▸ List.mem_cons_self))
        · exact Or.inl ⟨hrun, rfl⟩
    | consumed e => exact Or.inr (Or.inr (steady_deliverEvent _ e))
    | delivered => exact Or.inr (Or.inr (.refl _))
    | failed => cases hframe
    | finished =>
        refine Or.inr (Or.inr ?_)
        simp only [component]
        split
        · exact .refl _
        · have hsame : Steady st.state { st.state with selfLock := false } := .same rfl rfl
          exact hsame.trans (steady_release _)
    | cancelling i => cases hframe
    | cancelled i => cases hframe
  cases hstep with
  | call c turn _ ok =>
      rw [Open.perform_state]
      cases c with
      | subscribe =>
          exact Or.inr (Or.inl ⟨{ st.state with selfLock := true, created := true },
            .same rfl rfl, rfl⟩)
      | request n =>
          have hsame : Steady st.state
              { st.state with requestBalance := st.state.requestBalance.add n } :=
            .same rfl rfl
          exact Or.inr (Or.inr (hsame.trans (steady_maybeDeliver _)))
      | cancel => exact ok.elim
  | said p i' o turn kind ok =>
      rw [Open.perform_state]
      refine Or.inr (Or.inr ?_)
      cases o with
      | onSubscribe => exact steady_onSubscribe _ p
      | onNext e => exact steady_onNext _ p _
      | destroy => exact steady_destroyWrapper _ p
  | reply who k rest turn top ok =>
      rw [Open.perform_state]
      exact hresume k (Or.inl ⟨turn, ok, who, rest, top⟩)
  | view p v turn ok => exact Or.inr (Or.inr (.refl _))
  | run k turn ok =>
      rw [Open.perform_state]
      exact hresume k (Or.inr ⟨turn, ok⟩)

/-- A step that does not take the event of the upstream that is reached first
    leaves it so. -/
theorem before_step {i j : Nat} {st st' : Open (component T publisher)}
    (hreach : Open.Reach subscriptionCheck (FairRules publisher) st)
    (h : Before publisher j i st.state) (hnot : ¬ Takes j st)
    (hstep : Open.Step subscriptionCheck (FairRules publisher) st st') :
    Before publisher j i st'.state := by
  rcases step_cases hreach hstep with ⟨hturn, hstate⟩ | ⟨t, hsteady, hstate⟩ | hsteady
  · rw [hstate]
    exact h.deliver fun hended hcond heq => hnot ⟨⟨hturn, hended, hcond, heq ▸ h.holds⟩, heq⟩
  · rw [hstate]
    have ht := h.steady hsteady
    exact ht.steady (steady_subscribeNext publisher _ ht.full)
  · exact h.steady hsteady

/-- A round that finds an event takes it. -/
theorem deliver_of_holds (s : MergeStream V) (u : MergeUpstreamSubscriber V)
    (hended : s.hasEnded = false) (hcond : s.loopCondition = true)
    (hu : s.upstreamSubscribers[s.currentIndex]? = some u) (hatt : u.attached = true)
    (hhas : u.hasNext = true) :
    (s.deliver : Result ι V) =
      consumeNext { s with currentIndex := (s.currentIndex + 1) % s.upstreamSubscribers.length }
        s.currentIndex u := by
  unfold deliver
  rw [if_neg (by rw [hended]; exact Bool.false_ne_true), if_pos hcond]
  simp only [hu]
  rw [if_neg (by rw [hatt, hhas]; exact Bool.false_ne_true)]

/-- `ConsumeNext` leaves nothing behind with the subscriber of the upstream. -/
theorem consumeNext_emptied (s : MergeStream V) (c : Nat) (u : MergeUpstreamSubscriber V)
    (e : StatusOr V) (hu : s.upstreamSubscribers[c]? = some u) (hatt : u.attached = true)
    (hnext : u.next = some e) :
    ∃ u', (s.consumeNext c u : Result ι V).1.upstreamSubscribers[c]? = some u' ∧
      u'.next = none ∧ u'.attached = !e.isEnd := by
  have hlt := (List.getElem?_eq_some_iff.mp hu).1
  have hset (t : MergeStream V) (u' : MergeUpstreamSubscriber V)
      (ht : t.upstreamSubscribers.length = s.upstreamSubscribers.length) :
      (t.setUpstream c u').upstreamSubscribers[c]? = some u' :=
    List.getElem?_set_self (ht ▸ hlt)
  simp only [consumeNext, hnext]
  by_cases hend : e.isEnd = true
  · rw [if_pos hend, hend]
    have hgone := hset ((s.setUpstream c { u with next := none }).addAvailable (-1))
      { u with next := none, attached := false } List.length_set
    unfold upstreamEnded
    simp only
    split
    · exact ⟨_, hgone, rfl, rfl⟩
    · split
      · exact ⟨_, hgone, rfl, rfl⟩
      · exact ⟨_, hgone, rfl, rfl⟩
  · rw [if_neg hend]
    rw [Bool.not_eq_true] at hend
    rw [hend]
    have htaken := hset s { u with next := none } rfl
    split
    · exact ⟨_, htaken, rfl, hatt⟩
    · exact ⟨_, htaken, rfl, hatt⟩

/-- A value that was consumed is in hand while the next one is requested. -/
theorem consumeNext_handed (st : Open (component T publisher)) (s : MergeStream (Sigma T)) (c : Nat)
    (u : MergeUpstreamSubscriber (Sigma T)) (e : StatusOr (Sigma T)) (hnext : u.next = some e)
    (hval : e.isEnd = false) :
    (Open.perform subscriptionCheck st (s.consumeNext c u)).turn.isFailed = true ∨
      ∃ who, (Open.perform subscriptionCheck st (s.consumeNext c u)).stack.head? =
        some (who, .consumed e) := by
  simp only [consumeNext, hnext]
  rw [if_neg (by rw [hval]; exact Bool.false_ne_true)]
  cases u.upstreamSubscription with
  | none => exact Or.inl rfl
  | some p =>
      simp only
      rcases Open.perform_ask_cases subscriptionCheck st _ p (.request 1) (.consumed e)
        with ⟨msg, hfail⟩ | hask
      · rw [hfail]
        exact Or.inl rfl
      · rw [hask]
        exact Or.inr ⟨.part p, rfl⟩

/-- A round that takes an event consumes it. -/
theorem consumed_of_takes {p : Nat} {st st' : Open (component T publisher)} (h : Takes p st)
    (hstep : Open.Step subscriptionCheck (FairRules publisher) st st') :
    ∃ e, Consumed p e st st' := by
  rcases h with ⟨⟨hturn, hended, hcond, u, hu, hatt, hhas⟩, rfl⟩
  rcases Option.isSome_iff_exists.mp hhas with ⟨e, hnext⟩
  have hround : st' = Open.perform subscriptionCheck st (consumeNext
      { st.state with
        currentIndex := (st.state.currentIndex + 1) % st.state.upstreamSubscribers.length }
      st.state.currentIndex u) := by
    rw [← deliver_of_holds st.state u hended hcond hu hatt hhas]
    exact hstep.of_run hturn
  refine ⟨e, ⟨u, hu, hatt, hnext⟩, ?_, fun hval => ?_⟩
  · rw [hround, Open.perform_state]
    exact consumeNext_emptied _ _ u e hu hatt hnext
  · rw [hround]
    exact consumeNext_handed st _ _ u e hnext hval

/-- A step that consumes an event is a round that takes it. -/
theorem takes_of_consumed {p : Nat} {e : StatusOr (Sigma T)} {st st' : Open (component T publisher)}
    (hreach : Open.Reach subscriptionCheck (FairRules publisher) st)
    (hstep : Open.Step subscriptionCheck (FairRules publisher) st st') (h : Consumed p e st st') :
    Takes p st := by
  rcases h.held with ⟨u, hu, hatt, hnext⟩
  have hholds : Holds st.state p :=
    ⟨u, hu, hatt, by rw [MergeUpstreamSubscriber.hasNext, hnext]; rfl⟩
  have hlost : ¬ Holds st'.state p := by
    rintro ⟨v, hv, -, hhas⟩
    rcases h.emptied with ⟨u', hu', hnone, -⟩
    rw [Option.some.inj (hv.symm.trans hu'), MergeUpstreamSubscriber.hasNext, hnone] at hhas
    cases hhas
  rcases step_cases hreach hstep with ⟨hturn, hstate⟩ | ⟨t, hsteady, hstate⟩ | hsteady
  · by_contra hnot
    refine hlost (hstate ▸ holds_deliver _ p hholds fun hended hcond heq => hnot ?_)
    exact ⟨⟨hturn, hended, hcond, heq ▸ hholds⟩, heq⟩
  · exact absurd (hstate ▸ holds_subscribeNext publisher _ p (hsteady.holds p hholds)) hlost
  · exact absurd (hsteady.holds p hholds) hlost

/-- After an event was taken from an upstream, the loop comes to every other
    one before it comes back. -/
theorem before_of_takes {i j : Nat} (hne : i ≠ j) {st st' : Open (component T publisher)}
    (hreach : Open.Reach subscriptionCheck (FairRules publisher) st) (htakes : Takes i st)
    (hstep : Open.Step subscriptionCheck (FairRules publisher) st st')
    (hholds : Holds st'.state j) : Before publisher j i st'.state := by
  rcases htakes with ⟨⟨hturn, hended, hcond, u, hu, hatt, hhas⟩, hindex⟩
  have hsound : Sound publisher st.state st.log :=
    (sound_reach st hreach).core (by rw [hturn]; rfl)
  have hlt := (List.getElem?_eq_some_iff.mp hu).1
  -- there is demand, so all upstreams have been subscribed
  have hfull : st.state.upstreamSubscribers.length = publisher.upstream.length := by
    refine hsound.full ?_
    by_contra hno
    have hzero := hsound.early ((Bool.not_eq_true _).mp hno)
    rw [loopCondition, hzero] at hcond
    cases hcond
  have hstate : st'.state = (st.state.deliver : Result ι (Sigma T)).1 := by
    rw [hstep.of_run hturn, Open.perform_state]
  have hplace : st'.state.currentIndex =
        (i + 1) % st.state.upstreamSubscribers.length ∧
      st'.state.upstreamSubscribers.length = st.state.upstreamSubscribers.length := by
    rw [hstate, ← hindex, deliver_of_holds st.state u hended hcond hu hatt hhas]
    exact consumeNext_place _ _ _
  have hj : j < st'.state.upstreamSubscribers.length := by
    rcases hholds with ⟨v, hv, -⟩
    exact (List.getElem?_eq_some_iff.mp hv).1
  refine ⟨hplace.2.trans hfull, ?_, by omega, hholds, ?_⟩
  · rw [hplace.1, hplace.2]
    exact Nat.mod_lt _ (by omega)
  · unfold distance
    rw [hplace.1, hplace.2]
    by_cases hlast : i + 1 < st.state.upstreamSubscribers.length
    · rw [Nat.mod_eq_of_lt hlast]
      split <;> split <;> omega
    · have heq : i + 1 = st.state.upstreamSubscribers.length := by omega
      rw [heq, Nat.mod_self]
      split <;> split <;> omega

/-- Every run that goes on after an event of the upstream at position `i` was
    consumed consumes the event that another upstream holds before it consumes
    the next one of the upstream at position `i`: as long as that event is not
    consumed, none from there is. -/
theorem no_starvation (publisher : MergePublisher ι) (i j : Nat) (hne : i ≠ j)
    (first next last after : Open (component T publisher)) (e e' : StatusOr (Sigma T))
    (hreach : Open.Reach subscriptionCheck (FairRules publisher) first)
    (hfirst : Open.Step subscriptionCheck (FairRules publisher) first next)
    (hconsumed : Consumed i e first next) (hholds : Holds next.state j)
    (hrun : Relation.ReflTransGen (Passing publisher j) next last)
    (hlast : Open.Step subscriptionCheck (FairRules publisher) last after) :
    ¬ Consumed i e' last after := by
  have hbefore : Open.Reach subscriptionCheck (FairRules publisher) last ∧
      Before publisher j i last.state := by
    clear hlast
    induction hrun with
    | refl =>
        have htakes := takes_of_consumed hreach hfirst hconsumed
        exact ⟨.step first next hreach hfirst, before_of_takes hne hreach htakes hfirst hholds⟩
    | tail _ htail ih =>
        rcases htail with ⟨hnext, hnot⟩
        rcases ih with ⟨hmid, hearlier⟩
        refine ⟨.step _ _ hmid hnext, before_step hmid hearlier (fun htakes => ?_) hnext⟩
        rcases consumed_of_takes htakes hnext with ⟨e, hc⟩
        exact hnot e hc
  intro hagain
  -- the loop is at the one upstream, so it is not before the other
  have hearlier := hbefore.2.earlier
  have hindex := (takes_of_consumed hbefore.1 hlast hagain).2
  unfold distance at hearlier
  rw [hindex, if_pos (Nat.le_refl i), Nat.sub_self] at hearlier
  exact Nat.not_lt_zero _ hearlier

/-- Both upstreams hold an event before there is demand. -/
def bothHold : List (Move Call Bool Unit (fun _ => Signal Nat)) :=
  [ .call .subscribe,
    .said 0 () .onSubscribe, .said 0 () (.onNext (.value 5)), .run, .reply, .reply,
    .said 1 () .onSubscribe, .said 1 () (.onNext (.value 6)), .run, .reply, .reply,
    .call (.request kMax) ]

/-- The upstream whose event was taken sends the next one at once, and the first
    one is delivered. -/
def answeredAtOnce : List (Move Call Bool Unit (fun _ => Signal Nat)) :=
  [ .said 0 () (.onNext (.value 7)), .reply, .reply ]

/-- Steps whose rounds do not take an event do not consume it. -/
theorem passing_of_sparing {j : Nat} {st st' : Open (component T publisher)}
    (hreach : Open.Reach subscriptionCheck (FairRules publisher) st)
    (h : Open.Later subscriptionCheck (Sparing publisher j) st st') :
    Relation.ReflTransGen (Passing publisher j) st st' := by
  have hall : Open.Reach subscriptionCheck (FairRules publisher) st' ∧
      Relation.ReflTransGen (Passing publisher j) st st' := by
    induction h with
    | refl => exact ⟨hreach, .refl⟩
    | tail _ htail ih =>
        rcases htail.and with ⟨hnext, hnot⟩
        exact ⟨.step _ _ ih.1 hnext,
          ih.2.tail ⟨hnext, fun e hc => hnot (takes_of_consumed ih.1 hnext hc)⟩⟩
  exact hall.2

/-- The event of the first upstream is consumed, it sends another one, and the
    next event that is consumed is that of the second upstream. -/
theorem no_starvation_two :
    ∃ first next last after : Open (component (fun _ : Unit => Nat) twoUpstreams), ∃ e e',
      Open.Reach subscriptionCheck (FairRules twoUpstreams) first ∧ Consumed 0 e first next ∧
        Holds next.state 1 ∧ Relation.ReflTransGen (Passing twoUpstreams 1) next last ∧
          Consumed 1 e' last after ∧ ∀ e'', ¬ Consumed 0 e'' last after := by
  rcases Open.exists_reach_of_play subscriptionCheck (FairRules twoUpstreams) bothHold
    (fun (first : Open (component (fun _ : Unit => Nat) twoUpstreams)) =>
      decide (Takes 0 first) &&
        (Open.move? subscriptionCheck (FairRules twoUpstreams) first .run).any fun next =>
          decide (Holds next.state 1) &&
            (Open.play subscriptionCheck (Sparing twoUpstreams 1) next answeredAtOnce).any
              fun last => decide (Takes 1 last) &&
                (Open.move? subscriptionCheck (FairRules twoUpstreams) last .run).isSome)
    (by decide +kernel) with ⟨first, hreach, htest⟩
  rw [Bool.and_eq_true, decide_eq_true_eq, Option.any_eq_true] at htest
  rcases htest with ⟨htakes, next, hnext, htest⟩
  rw [Bool.and_eq_true, decide_eq_true_eq, Option.any_eq_true] at htest
  rcases htest with ⟨hholds, last, hlast, htest⟩
  rw [Bool.and_eq_true, decide_eq_true_eq, Option.isSome_iff_exists] at htest
  rcases htest with ⟨htaken, after, hafter⟩
  have hfirst := Open.step_of_move? subscriptionCheck (FairRules twoUpstreams) first next .run hnext
  have hstep := Open.step_of_move? subscriptionCheck (FairRules twoUpstreams) last after .run hafter
  have hrun := passing_of_sparing (.step first next hreach hfirst)
    (Open.later_of_play _ _ answeredAtOnce next last hlast)
  rcases consumed_of_takes htakes hfirst with ⟨e, hc⟩
  rcases consumed_of_takes htaken hstep with ⟨e', hc'⟩
  exact ⟨first, next, last, after, e, e', hreach, hc, hholds, hrun, hc', fun e'' =>
    no_starvation twoUpstreams 0 1 (by decide) first next last after e e'' hreach hfirst hc hholds
      hrun hstep⟩

end MergeStream

end RxCppUniq
