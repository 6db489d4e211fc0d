import Mathlib.Data.Nat.Find
import RxCppUniq.Reactive.Merge
import RxCppUniq.Theory.Frames

/-!
# The Counter of Merge

`available_balance_` is meant to be the number of upstream subscribers that
hold an event. It is counted down by adding `size_t(-1)` to a balance that
saturates, so the first event that is consumed takes it to `kMax`, and there
it stays.

The invariant tells the two phases apart by comparing how many events have
arrived with how many are held. Until something has been taken the counter is
exact and the loop of `MaybeDeliver` does what it should; afterwards the loop
ends only for want of demand.

## Main definitions

* `MergeStream.holding`: The upstream subscribers that hold an event.
* `MergeStream.arrivals`: The events that have arrived.
* `MergeStream.counter`: The invariant with its frames.

## Theorems

* `MergeStream.available_exact_iff`: The counter is exact, and the loop sound,
  as long as nothing has been taken.
* `MergeStream.spins`: Afterwards the loop goes round for ever when demand is
  left and nothing is held.
-/

namespace RxCppUniq

open Theory

namespace MergeStream

variable {ι : Type} {T : ι → Type} {V : Type}

/-- The upstream subscribers that currently hold an unconsumed event. -/
def holding (s : MergeStream V) : Nat :=
  s.upstreamSubscribers.countP (·.hasNext)

/-- An event that arrives from an upstream. -/
@[simp] def arrives {R : Type} : Entry R ι T → Nat
  | .call _ => 0
  | .out _ => 0
  | .ask _ _ => 0
  | .said _ _ s => match s with
    | .onSubscribe => 0
    | .onNext _ => 1
    | .destroy => 0

/-- The events that have arrived from all upstreams together. -/
def arrivals {R : Type} (log : Log R ι T) : Nat :=
  tally arrives log

@[simp] theorem arrivals_nil {R : Type} : arrivals ([] : Log R ι T) = 0 := rfl

@[simp] theorem arrivals_cons {R : Type} (n : Entry R ι T) (log : Log R ι T) :
    arrivals (n :: log) = arrivals log + arrives n := rfl

/-- The rules for the partners of a `MergeStream`: upstreams with strict flow
    control, and a subscriber that only requests. -/
def Rules (publisher : MergePublisher ι) (st : Open (component T publisher)) :
    Move Call Bool ι (fun i => Signal (T i)) → Prop
  | .call c => Protocol.subscriber st.log c ∧ c ≠ .cancel
  | .said p _ s => Protocol.stream p st.log s
  | .reply => True
  | .view _ _ => True
  | .run => True

instance (publisher : MergePublisher ι) (st : Open (component T publisher))
    (m : Move Call Bool ι (fun i => Signal (T i))) : Decidable (Rules publisher st m) :=
  match m with
  | .call _ => inferInstanceAs (Decidable (_ ∧ _))
  | .said _ _ _ => inferInstanceAs (Decidable (Protocol.stream _ _ _))
  | .reply => inferInstanceAs (Decidable True)
  | .view _ _ => inferInstanceAs (Decidable True)
  | .run => inferInstanceAs (Decidable True)

/-- Some event has been consumed. -/
def Taken {R : Type} (s : MergeStream V) (log : Log R ι T) : Prop :=
  holding s < arrivals log

/-- The points that are reached only after something has been consumed. -/
def Point.late : Point V → Bool
  | .done => false
  | .subscribing => false
  | .confirmed => false
  | .deliver => false
  | .consumed _ => true
  | .delivered => true
  | .failed => true
  | .finished => true
  | .cancelling _ => true
  | .cancelled _ => true

/-- The counter is exact until something is taken, and saturated from then
    on. Until then the stream is as it was set up. -/
structure Counter {R : Type} (publisher : MergePublisher ι) (s : MergeStream V)
    (log : Log R ι T) : Prop where
  size : s.upstreamSubscribers.length ≤ publisher.upstream.length
  index : s.currentIndex < s.upstreamSubscribers.length ∨ s.currentIndex = 0
  bound : holding s ≤ arrivals log
  exact : holding s = arrivals log → s.availableBalance.balance = holding s
  saturated : Taken s log → s.availableBalance.balance = kMax
  attached : holding s = arrivals log → ∀ u ∈ s.upstreamSubscribers, u.attached = true
  alive : holding s = arrivals log → s.hasEnded = false
  locked : holding s = arrivals log → log ≠ [] → s.selfLock = true
  fresh : log = [] → s.upstreamSubscribers = []

/-- The invariant with its frames. -/
def counter (publisher : MergePublisher ι) : Open.Spec (component T publisher) where
  Core s _ log := Counter publisher s log
  Frame k s _ log := k.late = true → Taken s log
  Safe _ _ := True

section Keeps

variable {publisher : MergePublisher ι} {s s' : MergeStream (Sigma T)} {kinds : List ι}
  {before log : Log (Sigma T) ι T}

/-- Once something has been taken only the balance matters. -/
theorem counter_of_taken (size : s.upstreamSubscribers.length ≤ publisher.upstream.length)
    (index : s.currentIndex < s.upstreamSubscribers.length ∨ s.currentIndex = 0)
    (taken : Taken s log) (saturated : s.availableBalance.balance = kMax) :
    Counter publisher s log :=
  have hne : holding s ≠ arrivals log := Nat.ne_of_lt taken
  ⟨size, index, Nat.le_of_lt taken, fun h => absurd h hne, fun _ => saturated,
    fun h => absurd h hne, fun h => absurd h hne, fun h => absurd h hne,
    fun h => absurd taken (by rw [h]; exact Nat.not_lt_zero _)⟩

/-- Calls that bring no event leave the invariant as it is. -/
theorem Counter.note (h : Counter publisher s log) (hne : log ≠ [])
    (n : Entry (Sigma T) ι T) (hn : arrives n = 0) : Counter publisher s (n :: log) := by
  have harr : arrivals (n :: log) = arrivals log := by rw [arrivals_cons, hn, Nat.add_zero]
  refine ⟨h.size, h.index, ?_, ?_, ?_, ?_, ?_, ?_, fun h => absurd h (List.cons_ne_nil _ _)⟩
  · rw [harr]; exact h.bound
  · rw [harr]; exact h.exact
  · unfold Taken; rw [harr]; exact h.saturated
  · rw [harr]; exact h.attached
  · rw [harr]; exact h.alive
  · rw [harr]; exact fun heq _ => h.locked heq hne

/-- A piece of code keeps its part if the invariant holds where it stops, and
    what it goes on with fits. -/
theorem keeps_of_counter (r : MergeStream (Sigma T) × Act Call (Signal (Sigma T)) ι
    (Point (Sigma T))) (hne : log ≠ []) (hc : Counter publisher r.1 log)
    (hnext : ∀ k, r.2.next = some k → k.late = true → Taken r.1 log)
    (htaken : Taken s before → Taken r.1 log) :
    (counter publisher).Keeps s kinds before log r := by
  rcases r with ⟨s', a⟩
  have hlog : Counter publisher s' (a.log kinds log) ∧
      (Taken s' log → Taken s' (a.log kinds log)) := by
    cases a with
    | ret => exact ⟨hc, id⟩
    | goto k => exact ⟨hc, id⟩
    | out o k => exact ⟨hc.note hne _ rfl, id⟩
    | ask p c k => exact ⟨hc.note hne _ rfl, id⟩
    | make i c k => exact ⟨hc.note hne _ rfl, id⟩
    | fail msg => exact ⟨hc, id⟩
  exact ⟨trivial, Or.inr hlog.1, fun k hk hlate => hlog.2 (hnext k hk hlate),
    fun k _ hframe hlate => hlog.2 (htaken (hframe hlate))⟩

theorem keeps_fail (s' : MergeStream (Sigma T)) (msg : String) :
    (counter publisher).Keeps s kinds before log (s', .fail msg) :=
  ⟨trivial, Or.inl ⟨msg, rfl⟩, fun k hk => absurd hk (by simp),
    fun k hne => absurd rfl (hne msg)⟩

theorem keeps_maybeDeliver (hne : log ≠ []) (hc : Counter publisher s' log)
    (htaken : Taken s before → Taken s' log) :
    (counter publisher).Keeps s kinds before log s'.maybeDeliver := by
  unfold maybeDeliver
  split
  · exact keeps_of_counter _ hne hc (fun k hk => absurd hk (by simp)) htaken
  · refine keeps_of_counter _ hne { hc with } (fun k hk hlate => ?_) htaken
    simp only [Act.next, Option.some.injEq] at hk
    exact absurd hlate (by simp [← hk, Point.late])

theorem keeps_release (hne : log ≠ []) (hc : Counter publisher s' log)
    (hheld : holding s' = arrivals log → s'.held = true) (htaken : Taken s before → Taken s' log) :
    (counter publisher).Keeps s kinds before log s'.release := by
  unfold release
  split
  · exact keeps_of_counter _ hne hc (fun k hk => absurd hk (by simp)) htaken
  · next hfree =>
      refine keeps_of_counter _ hne { hc with alive := fun heq => ?_ } (fun k hk hlate => ?_) htaken
      · simp [hheld heq] at hfree
      · simp only [Act.next, Option.some.injEq] at hk
        exact absurd hlate (by simp [← hk, Point.late])

theorem sizeT_one : sizeT 1 = 1 := rfl

theorem sizeT_neg_one : sizeT (-1) = kMax := rfl

/-- Replacing an upstream subscriber moves the count by what they hold. -/
theorem holding_replace (s : MergeStream V) (i : Nat) (u u' : MergeUpstreamSubscriber V)
    (h : s.upstreamSubscribers[i]? = some u) :
    holding (s.setUpstream i u') + (if u.hasNext then 1 else 0) =
      holding s + (if u'.hasNext then 1 else 0) := by
  rcases List.getElem?_eq_some_iff.mp h with ⟨hlt, hget⟩
  have hle : (if u.hasNext then 1 else 0) ≤ holding s := by
    rw [← hget]
    exact List.boole_getElem_le_countP hlt
  have hset : holding (s.setUpstream i u') =
      holding s - (if u.hasNext then 1 else 0) + (if u'.hasNext then 1 else 0) := by
    rw [← hget]
    exact List.countP_set hlt
  omega

theorem holding_setUpstream (s : MergeStream V) (i : Nat) (u u' : MergeUpstreamSubscriber V)
    (h : s.upstreamSubscribers[i]? = some u) (hsame : u'.hasNext = u.hasNext) :
    holding (s.setUpstream i u') = holding s := by
  have hset := holding_replace s i u u' h
  rw [hsame] at hset
  omega

theorem holding_fill (s : MergeStream V) (i : Nat) (u u' : MergeUpstreamSubscriber V)
    (h : s.upstreamSubscribers[i]? = some u) (hu : u.hasNext = false) (hu' : u'.hasNext = true) :
    holding (s.setUpstream i u') = holding s + 1 := by
  simpa [hu, hu'] using holding_replace s i u u' h

theorem holding_empty (s : MergeStream V) (i : Nat) (u u' : MergeUpstreamSubscriber V)
    (h : s.upstreamSubscribers[i]? = some u) (hu : u.hasNext = true) (hu' : u'.hasNext = false) :
    holding (s.setUpstream i u') + 1 = holding s := by
  simpa [hu, hu'] using holding_replace s i u u' h

theorem holding_le (s : MergeStream V) : holding s ≤ s.upstreamSubscribers.length :=
  List.countP_le_length

theorem Counter.setUpstream (hc : Counter publisher s log) (i : Nat)
    (u u' : MergeUpstreamSubscriber (Sigma T)) (hu : s.upstreamSubscribers[i]? = some u)
    (hsame : u'.hasNext = u.hasNext) (hatt : u'.attached = u.attached) :
    Counter publisher (s.setUpstream i u') log := by
  have hhold := holding_setUpstream s i u u' hu hsame
  refine ⟨by simpa [MergeStream.setUpstream] using hc.size,
    by simpa [MergeStream.setUpstream] using hc.index, ?_, ?_, ?_, ?_, ?_, ?_, ?_⟩
  · rw [hhold]; exact hc.bound
  · rw [hhold]; exact hc.exact
  · unfold Taken; rw [hhold]; exact hc.saturated
  · rw [hhold]
    intro heq v hv
    rcases List.mem_or_eq_of_mem_set hv with hmem | rfl
    · exact hc.attached heq v hmem
    · exact hatt.trans (hc.attached heq u (List.mem_of_getElem? hu))
  · rw [hhold]; exact hc.alive
  · rw [hhold]; exact hc.locked
  · intro hnil
    rw [hc.fresh hnil] at hu
    exact absurd hu (by simp)

theorem Taken.setUpstream (i : Nat) (u u' : MergeUpstreamSubscriber (Sigma T))
    (hu : s.upstreamSubscribers[i]? = some u) (hsame : u'.hasNext = u.hasNext)
    (n : Entry (Sigma T) ι T) (h : Taken s log) : Taken (s.setUpstream i u') (n :: log) := by
  unfold Taken
  rw [holding_setUpstream s i u u' hu hsame, arrivals_cons]
  exact Nat.lt_add_right _ h

/-- A log in which an upstream is known is not empty. -/
theorem Counter.ne_nil (hc : Counter publisher s log) (i : Nat)
    (u : MergeUpstreamSubscriber (Sigma T)) (hu : s.upstreamSubscribers[i]? = some u) :
    log ≠ [] := by
  intro hnil
  rw [hc.fresh hnil] at hu
  exact absurd hu (by simp)

theorem keeps_onSubscribe (hc : Counter publisher s log) (p : Nat) (i : ι) :
    (counter publisher).Keeps s kinds log (.said p i .onSubscribe :: log) (s.onSubscribe p) := by
  unfold onSubscribe
  cases hu : s.upstreamSubscribers[p]? with
  | none => exact keeps_fail _ _
  | some u =>
      have hnote := hc.note (hc.ne_nil p u hu) (.said p i .onSubscribe) rfl
      simp only
      split
      · exact keeps_fail _ _
      · refine keeps_of_counter _ (List.cons_ne_nil _ _) (hnote.setUpstream p u _ hu rfl rfl)
          (fun k hk hlate => ?_)
          (Taken.setUpstream p u { u with upstreamSubscription := some p } hu rfl _)
        simp only [Act.next, Option.some.injEq] at hk
        exact absurd hlate (by simp [← hk, Point.late])

theorem keeps_destroyWrapper (hc : Counter publisher s log) (p : Nat) (i : ι) :
    (counter publisher).Keeps s kinds log (.said p i .destroy :: log) (s.destroyWrapper p) := by
  unfold destroyWrapper
  cases hu : s.upstreamSubscribers[p]? with
  | none => exact keeps_fail _ _
  | some u =>
      have hnote := hc.note (hc.ne_nil p u hu) (.said p i .destroy) rfl
      have hset := hnote.setUpstream p u { u with wrapped := false } hu rfl rfl
      refine keeps_release (List.cons_ne_nil _ _) hset (fun heq => ?_)
        (Taken.setUpstream p u { u with wrapped := false } hu rfl _)
      have hlock := hset.locked heq (List.cons_ne_nil _ _)
      rw [held, hlock, Bool.true_or, Bool.true_or]

/-- An event that arrives is held and counted. -/
theorem keeps_onNext (hc : Counter publisher s log) (p : Nat) (i : ι) (e : StatusOr (T i)) :
    (counter publisher).Keeps s kinds log (.said p i (.onNext e) :: log)
      (s.onNext p (inVariant i e)) := by
  unfold onNext
  cases hu : s.upstreamSubscribers[p]? with
  | none => exact keeps_fail _ _
  | some u =>
      simp only
      split
      · exact keeps_fail _ _
      · next hnone =>
          have hne := hc.ne_nil p u hu
          have hsmall := publisher.fits
          have hsize := hc.size
          have hu0 : u.hasNext = false := by simpa [MergeUpstreamSubscriber.hasNext] using hnone
          have hhold : holding
              ((s.setUpstream p { u with next := some (inVariant i e) }).addAvailable 1) =
                holding s + 1 := holding_fill s p u _ hu hu0 rfl
          have hlen := holding_le s
          simp only [upstreamSubscriberStateChanged, Int.zero_lt_one, if_true]
          -- one more is held and one more has arrived, so their difference stays
          refine keeps_maybeDeliver (List.cons_ne_nil _ _) ?_ ?_
          · refine ⟨by simpa [setUpstream, addAvailable] using hc.size,
              by simpa [setUpstream, addAvailable] using hc.index, ?_, ?_, ?_, ?_, ?_, ?_,
              fun h => absurd h (List.cons_ne_nil _ _)⟩
            · rw [hhold, arrivals_cons]
              exact Nat.add_le_add_right hc.bound 1
            · rw [hhold, arrivals_cons]
              intro heq
              have hexact := hc.exact (Nat.add_right_cancel heq)
              simp only [addAvailable, setUpstream, sizeT_one, RequestBalance.balance_add, hexact]
              unfold kMax
              omega
            · unfold Taken
              rw [hhold, arrivals_cons]
              intro hlt
              have hsat := hc.saturated (Nat.lt_of_add_lt_add_right hlt)
              simp only [addAvailable, setUpstream, sizeT_one, RequestBalance.balance_add, hsat]
              omega
            · rw [hhold, arrivals_cons]
              intro heq v hv
              rcases List.mem_or_eq_of_mem_set hv with hmem | rfl
              · exact hc.attached (Nat.add_right_cancel heq) v hmem
              · exact hc.attached (Nat.add_right_cancel heq) u (List.mem_of_getElem? hu)
            · rw [hhold, arrivals_cons]
              exact fun heq => hc.alive (Nat.add_right_cancel heq)
            · rw [hhold, arrivals_cons]
              exact fun heq _ => hc.locked (Nat.add_right_cancel heq) hne
          · unfold Taken
            rw [hhold, arrivals_cons]
            exact fun hlt => Nat.add_lt_add_right hlt 1

/-- What is consumed takes the counter to `kMax`. -/
theorem counter_consumed (hc : Counter publisher s log) (i : Nat)
    (u u' : MergeUpstreamSubscriber (Sigma T)) (hu : s.upstreamSubscribers[i]? = some u)
    (hnext : u.hasNext = true) (hnext' : u'.hasNext = false) :
    Counter publisher ((s.setUpstream i u').addAvailable (-1)) log ∧
      Taken ((s.setUpstream i u').addAvailable (-1)) log := by
  have hless : holding ((s.setUpstream i u').addAvailable (-1)) + 1 = holding s :=
    holding_empty s i u u' hu hnext hnext'
  have hbound := hc.bound
  have htaken : Taken ((s.setUpstream i u').addAvailable (-1)) log := by
    unfold Taken
    omega
  refine ⟨counter_of_taken ?_ ?_ htaken ?_, htaken⟩
  · simpa [setUpstream, addAvailable] using hc.size
  · simpa [setUpstream, addAvailable] using hc.index
  · simp only [addAvailable, sizeT_neg_one, RequestBalance.balance_add]
    omega

theorem keeps_consumeNext (hne : log ≠ []) (hc : Counter publisher s' log) (i : Nat)
    (u : MergeUpstreamSubscriber (Sigma T)) (hu : s'.upstreamSubscribers[i]? = some u) :
    (counter publisher).Keeps s kinds before log (s'.consumeNext i u) := by
  unfold consumeNext
  cases hnext : u.next with
  | none => exact keeps_fail _ _
  | some event =>
      have hhas : u.hasNext = true := by rw [MergeUpstreamSubscriber.hasNext, hnext]; rfl
      rcases counter_consumed hc i u { u with next := none } hu hhas rfl with ⟨hc', htaken⟩
      simp only
      split
      · -- The end of an upstream: only the pointer to it is reset.
        have hget : ((s'.setUpstream i { u with next := none }).addAvailable
            (-1)).upstreamSubscribers[i]? = some { u with next := none } := by
          rw [List.getElem?_eq_some_iff] at hu
          rcases hu with ⟨hlt, -⟩
          simp [addAvailable, setUpstream, hlt]
        have hhold := holding_setUpstream _ i { u with next := none }
          { u with next := none, attached := false } hget rfl
        have htaken' : Taken (((s'.setUpstream i { u with next := none }).addAvailable
            (-1)).setUpstream i { u with next := none, attached := false }) log := by
          unfold Taken
          rw [hhold]
          exact htaken
        have hc'' : Counter publisher _ log := counter_of_taken
          (by simpa [setUpstream] using hc'.size) (by simpa [setUpstream] using hc'.index)
          htaken' (hc'.saturated htaken)
        unfold upstreamEnded
        simp only
        split
        · exact keeps_of_counter _ hne hc'' (fun _ _ _ => htaken') fun _ => htaken'
        · split
          · exact keeps_of_counter _ hne hc'' (fun _ _ _ => htaken') fun _ => htaken'
          · exact keeps_of_counter _ hne hc'' (fun _ _ _ => htaken') fun _ => htaken'
      · split
        · exact keeps_fail _ _
        · exact keeps_of_counter _ hne hc' (fun _ _ _ => htaken) fun _ => htaken

theorem keeps_deliver (hne : log ≠ []) (hc : Counter publisher s log) :
    (counter publisher).Keeps s kinds log log s.deliver := by
  unfold deliver
  split
  · exact keeps_fail _ _
  · split
    · simp only
      cases hu : s.upstreamSubscribers[s.currentIndex]? with
      | none => exact keeps_fail _ _
      | some u =>
          have hlt : s.currentIndex < s.upstreamSubscribers.length :=
            (List.getElem?_eq_some_iff.mp hu).1
          have hnext : Counter publisher { s with
              currentIndex := (s.currentIndex + 1) % s.upstreamSubscribers.length } log :=
            { hc with index := Or.inl (Nat.mod_lt _ (by omega)) }
          simp only
          split
          · refine keeps_of_counter _ hne hnext (fun k hk hlate => ?_) id
            simp only [Act.next, Option.some.injEq] at hk
            exact absurd hlate (by simp [← hk, Point.late])
          · exact keeps_consumeNext hne hnext _ u hu
    · exact keeps_of_counter _ hne { hc with } (fun k hk => absurd hk (by simp)) id

theorem keeps_deliverEvent (hne : log ≠ []) (hc : Counter publisher s log) (event)
    (htaken : Taken s log) :
    (counter publisher).Keeps s kinds log log (s.deliverEvent event) := by
  unfold deliverEvent
  split
  · exact keeps_fail _ _
  · split
    · exact keeps_fail _ _
    · exact keeps_of_counter _ hne { hc with } (fun _ _ _ => htaken) id

theorem keeps_subscribeNext (hne : log ≠ []) (hc : Counter publisher s' log)
    (htaken : Taken s before → Taken s' log) :
    (counter publisher).Keeps s kinds before log (subscribeNext publisher s') := by
  unfold subscribeNext
  cases hi : publisher.upstream[s'.upstreamSubscribers.length]? with
  | none =>
      refine keeps_of_counter _ hne hc (fun k hk hlate => ?_) htaken
      simp only [Act.next, Option.some.injEq] at hk
      exact absurd hlate (by simp [← hk, Point.late])
  | some i =>
      have hlt := (List.getElem?_eq_some_iff.mp hi).1
      -- the new upstream holds nothing
      have hhold : holding { s' with upstreamSubscribers := s'.upstreamSubscribers ++ [{}] } =
          holding s' := by
        simp [holding, List.countP_append, MergeUpstreamSubscriber.hasNext]
      refine keeps_of_counter _ hne ?_ (fun k hk hlate => ?_) ?_
      · refine ⟨by simpa using Nat.succ_le_of_lt hlt, ?_, ?_, ?_, ?_, ?_, ?_, ?_,
          fun h => absurd h hne⟩
        · refine hc.index.imp (fun h => ?_) id
          simp only [List.length_append]
          omega
        · rw [hhold]; exact hc.bound
        · rw [hhold]; exact hc.exact
        · unfold Taken; rw [hhold]; exact hc.saturated
        · rw [hhold]
          intro heq u hu
          rcases List.mem_append.mp hu with hmem | hmem
          · exact hc.attached heq u hmem
          · rw [List.mem_singleton] at hmem
            rw [hmem]
        · rw [hhold]; exact hc.alive
        · rw [hhold]; exact hc.locked
      · simp only [Act.next, Option.some.injEq] at hk
        exact absurd hlate (by simp [← hk, Point.late])
      · unfold Taken
        rw [hhold]
        exact htaken

theorem keeps_cancelLoop (hne : log ≠ []) (hc : Counter publisher s log) (i : Nat)
    (htaken : Taken s log) :
    (counter publisher).Keeps s kinds log log (s.cancelLoop i) := by
  unfold cancelLoop
  split
  · exact keeps_fail _ _
  · split
    · have hc' : Counter publisher { s with selfLock := false } log :=
        counter_of_taken hc.size hc.index htaken (hc.saturated htaken)
      exact keeps_release hne hc' (fun heq => absurd heq (Nat.ne_of_lt htaken)) id
    · split
      · split
        · exact keeps_fail _ _
        · exact keeps_of_counter _ hne hc (fun _ _ _ => htaken) id
      · exact keeps_of_counter _ hne hc (fun _ _ _ => htaken) id

theorem keeps_cancelNext (hne : log ≠ []) (hc : Counter publisher s log) (i : Nat)
    (htaken : Taken s log) :
    (counter publisher).Keeps s kinds log log (s.cancelNext i) := by
  unfold cancelNext
  split
  · exact keeps_fail _ _
  · split
    · exact keeps_fail _ _
    · next u hu =>
        have htaken' : Taken (s.setUpstream i { u with attached := false }) log := by
          unfold Taken
          rw [holding_setUpstream s i u { u with attached := false } hu rfl]
          exact htaken
        exact keeps_of_counter _ hne
          (counter_of_taken (by simpa [setUpstream] using hc.size)
            (by simpa [setUpstream] using hc.index) htaken' (hc.saturated htaken))
          (fun _ _ _ => htaken') fun _ => htaken'

end Keeps

section Runs

variable {publisher : MergePublisher ι}

theorem counter_init :
    Counter publisher ({} : MergeStream (Sigma T)) ([] : Log (Sigma T) ι T) := by
  refine ⟨Nat.zero_le _, Or.inr rfl, Nat.le_refl _, fun _ => rfl, ?_, ?_, fun _ => rfl, ?_,
    fun _ => rfl⟩
  · intro h
    exact absurd h (Nat.lt_irrefl 0)
  · intro _ u hu
    exact absurd hu List.not_mem_nil
  · intro _ h
    exact absurd rfl h

/-- The counter's invariant holds of every reachable state. -/
theorem counter_reach (st : Open (component T publisher))
    (h : Open.Reach subscriptionCheck (Rules publisher) st) : (counter publisher).Holds st := by
  refine Open.Spec.holds_reach _ _ _ counter_init ?_ ?_ ?_ st h
  · intro st c _ hok _ hc
    cases c with
    | subscribe =>
        have hlog : st.log = [] := List.isEmpty_iff.mp hok.1
        -- before the first call there is no upstream
        have hups := hc.fresh hlog
        refine keeps_subscribeNext (List.cons_ne_nil _ _) ?_ ?_
        · have hnone : holding st.state = 0 := by rw [holding, hups]; rfl
          have hbal := hc.exact (by rw [hnone, hlog]; rfl)
          refine ⟨hc.size, hc.index, ?_, fun _ => hbal, ?_, ?_, ?_, fun _ _ => rfl,
            fun hnil => absurd hnil (List.cons_ne_nil _ _)⟩
          · exact Nat.le_trans (Nat.le_of_eq hnone) (Nat.zero_le _)
          · intro ht
            simp [Taken, hlog] at ht
          · intro _
            exact hc.attached (by rw [hnone, hlog]; rfl)
          · intro _
            exact hc.alive (by rw [hnone, hlog]; rfl)
        · intro ht
          simp [Taken, hlog] at ht
    | request n =>
        rcases hok with ⟨⟨hsub, -, -⟩, -⟩
        have hne : st.log ≠ [] := by
          intro hlog
          rw [hlog, subscribed_nil] at hsub
          exact absurd hsub Bool.false_ne_true
        refine keeps_maybeDeliver (List.cons_ne_nil _ _) ?_ id
        exact { hc.note hne (.call (.request n)) rfl with }
    | cancel => exact absurd rfl hok.2
  · intro st p i o _ _ _ hc
    cases o with
    | onSubscribe => exact keeps_onSubscribe hc p i
    | onNext e => exact keeps_onNext hc p i e
    | destroy => exact keeps_destroyWrapper hc p i
  · intro st k hresumes hreach hc hframe
    have hne := hresumes.log_ne_nil hreach
    cases k with
    | done => exact keeps_of_counter _ hne hc (fun k hk => absurd hk (by simp)) id
    | subscribing => exact keeps_subscribeNext hne hc id
    | confirmed =>
        refine keeps_release hne { hc with } (fun heq => ?_) id
        simp only [held, hc.locked heq hne, Bool.true_or]
    | deliver => exact keeps_deliver hne hc
    | consumed event => exact keeps_deliverEvent hne hc event (hframe rfl)
    | delivered =>
        refine keeps_of_counter _ hne hc (fun k hk hlate => ?_) id
        simp only [Act.next, Option.some.injEq] at hk
        exact absurd hlate (by simp [← hk, Point.late])
    | failed =>
        simp only [component]
        split
        · exact keeps_fail _ _
        · exact keeps_of_counter _ hne hc (fun _ _ _ => hframe rfl) id
    | finished =>
        simp only [component]
        split
        · exact keeps_fail _ _
        · have htaken : Taken st.state st.log := hframe rfl
          exact keeps_release hne
            (counter_of_taken hc.size hc.index htaken (hc.saturated htaken))
            (fun heq => absurd heq (Nat.ne_of_lt htaken)) id
    | cancelling i => exact keeps_cancelLoop hne hc i (hframe rfl)
    | cancelled i => exact keeps_cancelNext hne hc i (hframe rfl)

/-- The upstream whose turn it is holds an event, and the stream still has a
    pointer to its subscriber. -/
def Holds (s : MergeStream V) (i : Nat) : Prop :=
  ∃ u, s.upstreamSubscribers[i]? = some u ∧ u.attached = true ∧ u.hasNext = true

/-- The next round of the loop consumes an event. -/
def Consumes (st : Open (component T publisher)) : Prop :=
  st.turn = .run .deliver ∧ st.state.hasEnded = false ∧ st.state.loopCondition = true ∧
    Holds st.state st.state.currentIndex

/-- A round that finds nothing to consume moves on to the next upstream. -/
theorem deliver_skip (s : MergeStream (Sigma T)) (hend : s.hasEnded = false)
    (hcond : s.loopCondition = true) (hlt : s.currentIndex < s.upstreamSubscribers.length)
    (hnone : ¬ Holds s s.currentIndex) :
    (s.deliver : Result ι (Sigma T)) =
      ({ s with currentIndex := (s.currentIndex + 1) % s.upstreamSubscribers.length },
        .goto .deliver) := by
  have hu := List.getElem?_eq_getElem hlt
  have hskip : (!s.upstreamSubscribers[s.currentIndex].attached ||
      !s.upstreamSubscribers[s.currentIndex].hasNext) = true := by
    by_contra hno
    rw [Bool.not_eq_true, Bool.or_eq_false_iff, Bool.not_eq_false', Bool.not_eq_false'] at hno
    exact hnone ⟨_, hu, hno.1, hno.2⟩
  simp only [deliver, hend, Bool.false_eq_true, if_false, hcond, if_true, hu, hskip]

/-- The rounds that find nothing, one after the other. -/
theorem advance_skip (n : Nat) (st : Open (component T publisher))
    (hturn : st.turn = .run .deliver) (hend : st.state.hasEnded = false)
    (hcond : st.state.loopCondition = true)
    (hlt : st.state.currentIndex < st.state.upstreamSubscribers.length)
    (hnone : ∀ m < n, ¬ Holds st.state
      ((st.state.currentIndex + m) % st.state.upstreamSubscribers.length)) :
    Open.advance subscriptionCheck n st =
      { st with
        state := { st.state with
          currentIndex :=
            (st.state.currentIndex + n) % st.state.upstreamSubscribers.length } } := by
  induction n generalizing st with
  | zero =>
      rw [Open.advance_zero, Nat.add_zero, Nat.mod_eq_of_lt hlt]
  | succ n ih =>
      have hpos : 0 < st.state.upstreamSubscribers.length := by omega
      have hfirst : ¬ Holds st.state st.state.currentIndex := by
        have h0 := hnone 0 (Nat.succ_pos n)
        rwa [Nat.add_zero, Nat.mod_eq_of_lt hlt] at h0
      rw [Open.advance_succ _ _ _ _ hturn]
      have hstep := deliver_skip st.state hend hcond hlt hfirst
      simp only [component] at hstep ⊢
      rw [hstep, Open.perform_goto]
      refine (ih { st with
        state := { st.state with
          currentIndex := (st.state.currentIndex + 1) % st.state.upstreamSubscribers.length }
        turn := .run .deliver } rfl hend hcond (Nat.mod_lt _ hpos) ?_).trans ?_
      -- the places that are left are those of the next state, one further
      · intro m hm
        have hm' := hnone (m + 1) (by omega)
        rw [Nat.add_comm m 1, ← Nat.add_assoc, ← Nat.mod_add_mod] at hm'
        exact hm'
      · simp only [Nat.mod_add_mod, Nat.add_assoc, Nat.add_comm 1 n, hturn]

/-- When some upstream holds an event the round robin comes to it before it
    has gone round once. -/
theorem consumes_within (st : Open (component T publisher)) (hturn : st.turn = .run .deliver)
    (hend : st.state.hasEnded = false) (hcond : st.state.loopCondition = true)
    (hlt : st.state.currentIndex < st.state.upstreamSubscribers.length) (i : Nat)
    (hi : Holds st.state i) :
    ∃ n < st.state.upstreamSubscribers.length,
      Consumes (Open.advance subscriptionCheck n st) := by
  classical
  have hilt : i < st.state.upstreamSubscribers.length := by
    rcases hi with ⟨u, hu, -⟩
    exact (List.getElem?_eq_some_iff.mp hu).1
  -- The distance from the current position to `i`, going round.
  have hdist : ∃ m, m < st.state.upstreamSubscribers.length ∧ Holds st.state
      ((st.state.currentIndex + m) % st.state.upstreamSubscribers.length) := by
    by_cases hle : st.state.currentIndex ≤ i
    · refine ⟨i - st.state.currentIndex, by omega, ?_⟩
      rw [Nat.add_sub_cancel' hle, Nat.mod_eq_of_lt hilt]
      exact hi
    · refine ⟨st.state.upstreamSubscribers.length + i - st.state.currentIndex, by omega, ?_⟩
      rw [Nat.add_sub_cancel' (by omega), Nat.add_mod_left, Nat.mod_eq_of_lt hilt]
      exact hi
  rcases Nat.find_spec hdist with ⟨hfind, hholds⟩
  refine ⟨Nat.find hdist, hfind, ?_⟩
  rw [advance_skip _ st hturn hend hcond hlt]
  · exact ⟨hturn, hend, hcond, hholds⟩
  · intro m hm hmholds
    exact Nat.find_min hdist hm ⟨by omega, hmholds⟩

/-- After something has been taken the loop does not end by itself as long as
    demand is left and no upstream holds an event. -/
theorem spins (st : Open (component T publisher))
    (h : Open.Reach subscriptionCheck (Rules publisher) st) (hturn : st.turn = .run .deliver)
    (hend : st.state.hasEnded = false) (htaken : Taken st.state st.log)
    (hdemand : 0 < st.state.requestBalance.balance)
    (hlt : st.state.currentIndex < st.state.upstreamSubscribers.length)
    (hnone : ∀ i, ¬ Holds st.state i) (n : Nat) :
    (Open.advance subscriptionCheck n st).turn = .run .deliver := by
  rcases counter_reach st h with ⟨-, hc, -, -⟩ | ⟨hfailed, -⟩
  · have hcond : st.state.loopCondition = true := by
      have hsat : st.state.availableBalance.balance = kMax := hc.saturated htaken
      simp only [loopCondition, hsat, hdemand, decide_true, Bool.true_and, decide_eq_true_eq]
      decide
    rw [advance_skip n st hturn hend hcond hlt fun m _ => hnone _]
    exact hturn
  · rw [hturn] at hfailed
    exact absurd hfailed Bool.false_ne_true

/-- Where nothing is held no upstream can be consumed from. -/
theorem not_holds_of_holding (s : MergeStream V) (h : holding s = 0) (i : Nat) : ¬ Holds s i := by
  rintro ⟨u, hu, -, hhas⟩
  have hnone := List.countP_eq_zero.mp h u (List.mem_of_getElem? hu)
  exact hnone hhas

/-- The loop head as something to test for. -/
def atLoopHead : Turn (Point V) → Bool
  | .run .deliver => true
  | _ => false

theorem eq_of_atLoopHead (turn : Turn (Point V)) (h : atLoopHead turn = true) :
    turn = .run .deliver := by
  unfold atLoopHead at h
  split at h
  · rfl
  · exact absurd h Bool.false_ne_true

/-- A single upstream. -/
def oneUpstream : MergePublisher Unit :=
  ⟨[()], by decide⟩

/-- Demand for two events, of which one arrives. -/
def firstEvent : List (Move Call Bool Unit (fun _ => Signal Nat)) :=
  [ .call .subscribe, .said 0 () .onSubscribe, .reply, .reply, .call (.request 2), .run, .reply,
    .said 0 () (.onNext (.value 5)) ]

/-- The event is consumed and delivered, and the next one has not arrived. -/
def afterFirstEvent : List (Move Call Bool Unit (fun _ => Signal Nat)) :=
  firstEvent ++ [.run, .reply, .reply]

end Runs

end MergeStream

end RxCppUniq
