import RxCppUniq.Flow.MergeCounter

/-!
# Shutting Merge down

`MergeStream` cancels its upstreams when its subscriber cancels it and after
it has passed an error on. It keeps a pointer to the subscriber of every
upstream whose last event has not been consumed, and cancels all of these,
also those whose upstream has delivered its last event and is gone.

The rules have a switch for the condition under which this goes well. The
invariant follows what `MaybeDeliver` and `Cancel` are doing by a mode, which
fixes what is executed and which of their frames are on the stack.

## Main definitions

* `MergeStream.ShutdownRules`: What the partners may do.
* `MergeStream.sent`: The events of an upstream, as events of the variant.
* `MergeStream.Progress`: How far an upstream and its subscriber are.
* `MergeStream.Mode`: What the two loops are doing.
* `MergeStream.Intact`: The invariant.
* `MergeStream.Clean`: What a clean shutdown is.

## Theorems

* `MergeStream.arrived_eq_sent`: What was sent is what has arrived.
* `MergeStream.intact_step`: The invariant is kept by every step.
* `MergeStream.shutdown_clean`: Under the condition the shutdown is clean in
  every reachable state.
* `MergeStream.cancel_ended_upstream`: Without it a check fails.
-/

namespace RxCppUniq

open Theory

namespace MergeStream

variable {ι : Type} {T : ι → Type} {V : Type}

section Log

variable {R : Type}

/-- The subscriber has received an error. -/
def errorSent (log : Log R ι T) : Bool :=
  (received log).any (·.isError)

/-- The stream has sent an error. -/
def brokeOff (codes : List StatusCode) : Bool :=
  codes.any fun c => c != .ok && c != .outOfRange

/-- The shutdown has begun. -/
def down (log : Log R ι T) : Bool :=
  cancelCalled log || errorSent log

/-- The code of the event as an event of the variant. -/
@[simp] theorem code_inVariant (i : ι) (e : StatusOr (T i)) : (inVariant i e).code = e.code := by
  cases e <;> rfl

/-- The event of a call of the upstream at position `p`. -/
@[simp] def sentIn (p : Nat) : Entry (Sigma T) ι T → Option (StatusOr (Sigma T))
  | .call _ => none
  | .out _ => none
  | .ask _ _ => none
  | .said q i s => if q = p then s.event?.map (inVariant i) else none

/-- The events the upstream at position `p` has sent so far, in order. -/
def sent (p : Nat) (log : Log (Sigma T) ι T) : List (StatusOr (Sigma T)) :=
  (log.filterMap (sentIn p)).reverse

@[simp] theorem sent_nil (p : Nat) : sent p ([] : Log (Sigma T) ι T) = [] := rfl

@[simp] theorem sent_cons (p : Nat) (n : Entry (Sigma T) ι T) (log : Log (Sigma T) ι T) :
    sent p (n :: log) = sent p log ++ (sentIn p n).toList := by
  cases h : sentIn p n <;>
    simp only [sent, List.filterMap_cons, h, List.reverse_cons, Option.toList_none,
      Option.toList_some, List.append_nil]

/-- What was sent, by its code, is what has arrived. -/
theorem arrived_eq_sent (p : Nat) (log : Log (Sigma T) ι T) :
    arrived p log = (sent p log).map StatusOr.code := by
  induction log with
  | nil => rfl
  | cons n log ih =>
      rw [arrived_cons, sent_cons, List.map_append, ih]
      congr 1
      cases n with
      | said q i s =>
          by_cases hq : q = p
          · cases s <;> simp only [Entry.arrived, sentIn, hq, if_true, Signal.event?,
              Option.map_none, Option.map_some, Option.toList_none, Option.toList_some,
              List.map_nil, List.map_cons, code_inVariant]
          · simp only [Entry.arrived, sentIn, hq, if_false, Option.toList_none, List.map_nil]
      | call c => rfl
      | out o => rfl
      | ask q c => rfl

/-- From a stream of which nothing has arrived nothing was sent. -/
theorem sent_eq_nil (p : Nat) (log : Log (Sigma T) ι T) (h : arrived p log = []) :
    sent p log = [] := by
  rw [arrived_eq_sent, List.map_eq_nil_iff] at h
  exact h

/-- An error is what ends with a code that is neither `OK` nor `Done`. -/
theorem isError_eq (e : StatusOr (Sigma T)) : e.isError = brokeOff [e.code] := by
  simp only [StatusOr.isError, StatusOr.isDone, brokeOff, List.any_cons, List.any_nil,
    Bool.or_false, bne]

theorem brokeOff_of_mem_sent (p : Nat) (log : Log (Sigma T) ι T) (e : StatusOr (Sigma T))
    (he : e ∈ sent p log) (herr : e.isError = true) : brokeOff (arrived p log) = true := by
  rw [isError_eq, brokeOff, List.any_cons, List.any_nil, Bool.or_false] at herr
  rw [arrived_eq_sent, brokeOff, List.any_map, List.any_eq_true]
  exact ⟨e, he, herr⟩

/-- Nothing follows an error, so an upstream sends one error at most. -/
theorem eq_of_mem_sent (p : Nat) (log : Log (Sigma T) ι T) (x e : StatusOr (Sigma T))
    (hcode : ∃ older, arrived p log = older ++ [x.code] ∧ ended older = false)
    (hx : x ∈ sent p log) (hxerr : x.isError = true) (he : e ∈ sent p log)
    (herr : e.isError = true) : e = x := by
  rcases hcode with ⟨codes, hcodes, hopen⟩
  rw [arrived_eq_sent, List.map_eq_append_iff] at hcodes
  rcases hcodes with ⟨older, newest, hsent, hold, hnew⟩
  rcases List.map_eq_singleton_iff.mp hnew with ⟨y, rfl, -⟩
  have hlast (z : StatusOr (Sigma T)) (hz : z ∈ sent p log) (hzerr : z.isError = true) : z = y := by
    rw [hsent, List.mem_append, List.mem_singleton] at hz
    rcases hz with hz | hz
    · rw [ended_eq_false, ← hold] at hopen
      have hok := hopen z.code (List.mem_map_of_mem hz)
      rw [isError_eq, hok] at hzerr
      exact absurd hzerr (by decide)
    · exact hz
  rw [hlast e he herr, hlast x hx hxerr]

end Log

section Rules

variable {publisher : MergePublisher ι}

/-- A point at which `Cancel` waits for an upstream. -/
def Point.inCancel : Point V → Bool
  | .cancelled _ => true
  | _ => false

/-- A point at which `MaybeDeliver` waits for an upstream. -/
def Point.inConsume : Point V → Bool
  | .consumed _ => true
  | _ => false

/-- The upstreams are not being cancelled. -/
def Calm (st : Open (component T publisher)) : Prop :=
  ∀ f ∈ st.stack, f.2.inCancel = false

/-- Every upstream the stream has a pointer to has confirmed its subscription
    and has not ended it. -/
def Ready (st : Open (component T publisher)) : Prop :=
  ∀ f ∈ st.state.upstreamSubscribers.zipIdx, f.1.attached = true →
    f.1.upstreamSubscription.isSome = true ∧ st.views f.2 = false

/-- `OnNext` of the subscriber may return to this point. -/
def MayReturn (st : Open (component T publisher)) : Point (Sigma T) → Prop
  | .delivered => st.state.hasEnded = false
  | .finished => st.state.hasEnded = false
  | .failed => st.state.hasEnded = false ∧ Ready st
  | _ => True

/-- The rules for the partners of a `MergeStream`: upstreams with strict flow
    control that end their subscription with the last event or when they are
    cancelled, and a subscriber that may cancel from outside or from inside
    its `OnNext`. Under the condition that is switched on,

    * the upstreams there are pointers to have confirmed and not ended their
      subscriptions when the stream begins to cancel them,
    * while it does so none of those still to be cancelled ends, and no event
      or request sets `MaybeDeliver` going,
    * the stream still exists when `OnNext` returns to `MaybeDeliver`. -/
def ShutdownRules (careful : Bool) (st : Open (component T publisher)) :
    Move Call Bool ι (fun i => Signal (T i)) → Prop
  | .call c => Protocol.subscriber st.log c ∧
      (c = .cancel → ∀ f ∈ st.stack, f.2.inConsume = false) ∧
      (careful = true → (Calm st ∨ c ≠ .cancel ∧ st.state.delivering = true) ∧
        (c = .cancel → Ready st))
  | .said p _ s => Protocol.stream p st.log s ∧
      (s.event?.map StatusOr.code = some .ok → st.views p = false) ∧
      (careful = true → s.event? ≠ none → Calm st ∨ st.state.delivering = true)
  | .reply => careful = true → ∀ f ∈ st.stack.head?, MayReturn st f.2
  | .view p v => v = true ∧
      (1 ≤ cancels p st.log ∨ ended (arrived p st.log) = true ∨
        (arrived p st.log).length < tokens p st.log) ∧
      (careful = true → Calm st ∨ 1 ≤ cancels p st.log ∨
        ∀ u ∈ st.state.upstreamSubscribers[p]?, u.attached = false)
  | .run => True

instance (st : Open (component T publisher)) : Decidable (Calm st) :=
  inferInstanceAs (Decidable (∀ f ∈ st.stack, f.2.inCancel = false))

instance (st : Open (component T publisher)) : Decidable (Ready st) :=
  inferInstanceAs (Decidable (∀ f ∈ st.state.upstreamSubscribers.zipIdx, _ → _))

instance (st : Open (component T publisher)) (k : Point (Sigma T)) : Decidable (MayReturn st k) :=
  match k with
  | .delivered => inferInstanceAs (Decidable (_ = _))
  | .finished => inferInstanceAs (Decidable (_ = _))
  | .failed => inferInstanceAs (Decidable (_ ∧ _))
  | .done => inferInstanceAs (Decidable True)
  | .subscribing => inferInstanceAs (Decidable True)
  | .confirmed => inferInstanceAs (Decidable True)
  | .deliver => inferInstanceAs (Decidable True)
  | .consumed _ => inferInstanceAs (Decidable True)
  | .cancelling _ => inferInstanceAs (Decidable True)
  | .cancelled _ => inferInstanceAs (Decidable True)

instance (careful : Bool) (st : Open (component T publisher))
    (m : Move Call Bool ι (fun i => Signal (T i))) : Decidable (ShutdownRules careful st m) :=
  match m with
  | .call _ => inferInstanceAs (Decidable (_ ∧ _ ∧ _))
  | .said _ _ s => inferInstanceAs (Decidable (_ ∧ _ ∧ (_ → ¬s.event? = none → _)))
  | .reply => inferInstanceAs (Decidable (_ → ∀ f ∈ st.stack.head?, MayReturn st f.2))
  | .view _ _ => inferInstanceAs (Decidable (_ ∧ _ ∧ _))
  | .run => inferInstanceAs (Decidable True)

end Rules

section Invariant

variable (s : MergeStream (Sigma T)) (views : Nat → Bool) (kinds : List ι)
  (log : Log (Sigma T) ι T)

/-- How far the upstream at position `p` and its subscriber `u` are. The
    upstream is always asked for one event more than has been consumed, until
    its last one. -/
inductive Progress (p : Nat) (u : MergeUpstreamSubscriber (Sigma T)) : Prop where
  | waiting (unconfirmed : confirmed p log = false) (none : u.next = none)
      (unasked : tokens p log = 0) (unheard : arrived p log = []) (attached : u.attached = true)
      (uncancelled : cancels p log = 0)
  | asked (confirmed : confirmed p log = true) (none : u.next = none)
      (open_ : ended (arrived p log) = false) (asked : tokens p log = (arrived p log).length + 1)
  | holding (e : StatusOr (Sigma T)) (confirmed : confirmed p log = true) (some : u.next = some e)
      (code : ∃ older, arrived p log = older ++ [e.code] ∧ ended older = false)
      (asked : tokens p log = (arrived p log).length)
  | spent (confirmed : confirmed p log = true) (none : u.next = none)
      (past : ended (arrived p log) = true) (asked : tokens p log = (arrived p log).length)
      (detached : u.attached = false)

/-- What is known of an upstream. `now` says that it is being cancelled. -/
structure Known (now : Bool) (p : Nat) (u : MergeUpstreamSubscriber (Sigma T)) : Prop where
  subscription : u.upstreamSubscription = if confirmed p log then some p else none
  wrapped : u.wrapped = !released p log
  progress : Progress log p u
  held : ∀ e, u.next = some e → e ∈ sent p log
  cancelled : now = true → cancels p log = 1
  attached : now = false → u.attached = true → cancels p log = 0
  detached : now = false → u.attached = false →
    cancels p log = 1 ∨ cancels p log = 0 ∧ ended (arrived p log) = true

/-- Nothing has passed between the stream and the upstream at position `p`. -/
structure Silent (p : Nat) : Prop where
  confirmed : confirmed p log = false
  released : released p log = false
  arrived : arrived p log = []
  tokens : tokens p log = 0
  cancels : cancels p log = 0

/-- Nothing was delivered after a `Cancel`. -/
def Silence : Prop :=
  ∀ newer older, log = newer ++ .call .cancel :: older → received newer = []

/-- The stream has no pointer to an upstream subscriber any more. -/
def Detached : Prop :=
  ∀ u ∈ s.upstreamSubscribers, u.attached = false

/-- The upstreams from position `i` on are ready to be cancelled, and the
    stream has no pointer to those before. -/
def ReadyFrom (i : Nat) : Prop :=
  ∀ p u, s.upstreamSubscribers[p]? = some u → u.attached = true →
    i ≤ p ∧ u.upstreamSubscription.isSome = true ∧ views p = false

/-- What holds whatever the loops are doing. `now` is the upstream that is
    being cancelled, if there is one. -/
structure Core (now : Option Nat) : Prop where
  size : s.upstreamSubscribers.length = kinds.length
  known : ∀ p u, s.upstreamSubscribers[p]? = some u → Known log (now == some p) p u
  later : ∀ p, kinds.length ≤ p → Silent log p
  view : ∀ p, views p = true → 1 ≤ cancels p log ∨ ended (arrived p log) = true ∨
    (arrived p log).length < tokens p log
  ended : s.hasEnded = true → ∀ u ∈ s.upstreamSubscribers, u.alive = false
  lock : s.selfLock = false → Detached s
  index : s.currentIndex < s.upstreamSubscribers.length ∨ s.currentIndex = 0
  empty : s.upstreamSubscribers = [] → s.availableBalance.balance = 0
  output : ∀ e ∈ (received log).dropLast, e.isError = false
  passed : ∀ p u, s.upstreamSubscribers[p]? = some u → u.next = none →
    ∀ e ∈ sent p log, e.isError = true → (received log).getLast? = some e
  silence : Silence log

end Invariant

/-- What `MaybeDeliver` waits for while other code is executed. -/
inductive Rest where
  | none
  | delivered
  | failed
  | finished
deriving DecidableEq

def Rest.frames : Rest → List (Point V)
  | .none => []
  | .delivered => [.delivered]
  | .failed => [.failed]
  | .finished => [.finished]

/-- What the loops of `MaybeDeliver` and `Cancel` are doing. -/
inductive Mode (V : Type) where
  /-- Nobody has subscribed yet. -/
  | fresh
  /-- The upstreams are being subscribed, in the second case with a pass of
      `MaybeDeliver` under way. -/
  | setup
  | setupLoop
  | resting (r : Rest)
  | looping
  | consuming (event : StatusOr V)
  | cancelling (i : Nat) (r : Rest)
  | cancelled (i : Nat) (r : Rest)

namespace Mode

def turn : Mode V → Turn (Point V)
  | .fresh => .outside
  | .setup => .outside
  | .setupLoop => .run .deliver
  | .resting _ => .outside
  | .looping => .run .deliver
  | .consuming _ => .outside
  | .cancelling i _ => .run (.cancelling i)
  | .cancelled _ _ => .outside

/-- The frames of the two loops and of the subscription that are on the
    stack, the innermost first. -/
def frames : Mode V → List (Point V)
  | .fresh => []
  | .setup => [.subscribing]
  | .setupLoop => [.subscribing]
  | .resting r => r.frames
  | .looping => []
  | .consuming event => [.consumed event]
  | .cancelling _ r => r.frames
  | .cancelled i r => .cancelled i :: r.frames

/-- The upstream that is being cancelled. -/
def now : Mode V → Option Nat
  | .cancelled i _ => some i
  | _ => none

/-- What holds in each mode. -/
def Facts (s : MergeStream (Sigma T)) (views : Nat → Bool) (log : Log (Sigma T) ι T) :
    Mode (Sigma T) → Prop
  | .fresh => log = [] ∧ s = {}
  | .setup => log ≠ [] ∧ subscribed log = false ∧ s.requestBalance.balance = 0 ∧
      s.selfLock = true ∧ s.hasEnded = false ∧ down log = false
  | .setupLoop => log ≠ [] ∧ subscribed log = false ∧ s.requestBalance.balance = 0 ∧
      s.selfLock = true ∧ s.hasEnded = false ∧ down log = false
  | .resting r => log ≠ [] ∧ (r ≠ .none → s.delivering = true) ∧
      (down log = true → Detached s ∨ r = .failed ∧ cancelCalled log = false) ∧
      (r = .failed → errorSent log = true) ∧ (r = .finished → Detached s)
  | .looping => log ≠ [] ∧ s.delivering = true ∧ s.hasEnded = false ∧
      (down log = true → Detached s)
  | .consuming event => log ≠ [] ∧ s.delivering = true ∧ s.hasEnded = false ∧
      s.selfLock = true ∧ down log = false ∧ 0 < s.requestBalance.balance ∧ event.isEnd = false
  | .cancelling i r => log ≠ [] ∧ (r ≠ .none → s.delivering = true) ∧ s.hasEnded = false ∧
      down log = true ∧ (r = .failed → errorSent log = true) ∧ (r = .finished → Detached s) ∧
      ReadyFrom s views i
  | .cancelled i r => log ≠ [] ∧ (r ≠ .none → s.delivering = true) ∧ down log = true ∧
      (r = .failed → errorSent log = true) ∧ (r = .finished → Detached s) ∧
      (∃ u, s.upstreamSubscribers[i]? = some u ∧ u.attached = true) ∧
      ∀ p u, s.upstreamSubscribers[p]? = some u → u.attached = true →
        i ≤ p ∧ (p ≠ i → u.upstreamSubscription.isSome = true ∧ views p = false)

end Mode

/-- A frame of the two loops or of the subscription. -/
def Point.tracked : Point V → Bool
  | .done => false
  | .confirmed => false
  | _ => true

section Runs

variable {publisher : MergePublisher ι}

/-- The invariant: nothing has failed, and what is executed, the tracked
    frames and the state fit a mode. -/
structure Intact (mode : Mode (Sigma T)) (st : Open (component T publisher)) : Prop where
  turn : st.turn = mode.turn
  frames : (st.stack.map Prod.snd).filter Point.tracked = mode.frames
  core : Core st.state st.views st.kinds st.log mode.now
  facts : mode.Facts st.state st.views st.log

theorem intact_init : Intact .fresh (Open.init (component T publisher)) := by
  refine ⟨rfl, rfl, ?_, rfl, rfl⟩
  exact
    { size := rfl
      known := fun p u hu => absurd hu (by simp [Open.init])
      later := fun p _ => ⟨rfl, rfl, rfl, rfl, rfl⟩
      view := fun p hv => absurd hv (by simp [Open.init])
      ended := fun h => absurd h (by simp [Open.init])
      lock := fun _ u hu => absurd hu (by simp [Open.init])
      index := Or.inr rfl
      empty := fun _ => rfl
      output := fun e he => absurd he (by simp [Open.init])
      passed := fun p u hu => absurd hu (by simp [Open.init])
      silence := fun newer older h => absurd h (by simp [Open.init]) }

end Runs

section Plumbing

variable {s s' : MergeStream (Sigma T)} {views : Nat → Bool} {kinds : List ι}
  {log log' : Log (Sigma T) ι T} {now : Option Nat} {b : Bool} {p : Nat}
  {u : MergeUpstreamSubscriber (Sigma T)}

/-- The logs say the same of the upstream at position `q`. -/
structure Same (q : Nat) (log log' : Log (Sigma T) ι T) : Prop where
  confirmed : confirmed q log' = confirmed q log
  released : released q log' = released q log
  tokens : tokens q log' = tokens q log
  arrived : arrived q log' = arrived q log
  sent : sent q log' = sent q log
  cancels : cancels q log' = cancels q log

/-- A call that has nothing to do with the upstream at position `q`. -/
theorem same_cons (q : Nat) (n : Entry (Sigma T) ι T) (hc : n.confirms q = false)
    (hr : n.releases q = false) (ht : n.tokens q = 0) (hs : sentIn q n = none)
    (hx : Entry.cancels q n = 0) : Same q log (n :: log) := by
  have hsent : MergeStream.sent q (n :: log) = MergeStream.sent q log := by
    rw [sent_cons, hs, Option.toList_none, List.append_nil]
  exact
    ⟨by rw [confirmed_cons, hc, Bool.false_or], by rw [released_cons, hr, Bool.false_or],
      by rw [tokens_cons, ht, Nat.add_zero], by rw [arrived_eq_sent, arrived_eq_sent, hsent], hsent,
      by rw [cancels_cons, hx, Nat.add_zero]⟩

theorem Same.trans {log'' : Log (Sigma T) ι T} {q : Nat} (h : Same q log log')
    (h' : Same q log' log'') : Same q log log'' :=
  ⟨h'.confirmed.trans h.confirmed, h'.released.trans h.released, h'.tokens.trans h.tokens,
    h'.arrived.trans h.arrived, h'.sent.trans h.sent, h'.cancels.trans h.cancels⟩

theorem same_call (q : Nat) (c : Call) : Same q log (.call c :: log) :=
  same_cons q _ rfl rfl rfl rfl rfl

theorem same_out (q : Nat) (o : Signal (Sigma T)) : Same q log (.out o :: log) :=
  same_cons q _ rfl rfl rfl rfl rfl

theorem same_said {q p : Nat} (hne : p ≠ q) (i : ι) (o : Signal (T i)) :
    Same q log (.said p i o :: log) := by
  refine same_cons q _ ?_ ?_ rfl (if_neg hne) rfl
  · cases o with
    | onSubscribe => simpa only [Entry.confirms, beq_eq_false_iff_ne] using hne
    | onNext e => rfl
    | destroy => rfl
  · cases o with
    | onSubscribe => rfl
    | onNext e => rfl
    | destroy => simpa only [Entry.releases, beq_eq_false_iff_ne] using hne

theorem same_ask {q p : Nat} (hne : p ≠ q) (c : Call) : Same q log (.ask p c :: log) := by
  refine same_cons q _ rfl rfl (if_neg hne) rfl ?_
  cases c with
  | subscribe => rfl
  | request n => rfl
  | cancel => exact if_neg hne

theorem Progress.same (h : Progress log p u) (hs : Same p log log') : Progress log' p u := by
  cases h with
  | waiting hc hn ht ha hatt hx =>
      exact .waiting (hs.confirmed.trans hc) hn (hs.tokens.trans ht) (hs.arrived.trans ha) hatt
        (hs.cancels.trans hx)
  | asked hc hn ho ht =>
      exact .asked (hs.confirmed.trans hc) hn (by rw [hs.arrived]; exact ho)
        (by rw [hs.tokens, hs.arrived]; exact ht)
  | holding e hc hn ho ht =>
      exact .holding e (hs.confirmed.trans hc) hn (by rw [hs.arrived]; exact ho)
        (by rw [hs.tokens, hs.arrived]; exact ht)
  | spent hc hn ho ht hd =>
      exact .spent (hs.confirmed.trans hc) hn (by rw [hs.arrived]; exact ho)
        (by rw [hs.tokens, hs.arrived]; exact ht) hd

theorem Known.same (h : Known log b p u) (hs : Same p log log') : Known log' b p u := by
  refine ⟨?_, ?_, h.progress.same hs, ?_, ?_, ?_, ?_⟩
  · rw [hs.confirmed]; exact h.subscription
  · rw [hs.released]; exact h.wrapped
  · rw [hs.sent]; exact h.held
  · rw [hs.cancels]; exact h.cancelled
  · rw [hs.cancels]; exact h.attached
  · rw [hs.cancels, hs.arrived]; exact h.detached

theorem Silent.same (h : Silent log p) (hs : Same p log log') : Silent log' p :=
  ⟨hs.confirmed.trans h.confirmed, hs.released.trans h.released, hs.arrived.trans h.arrived,
    hs.tokens.trans h.tokens, hs.cancels.trans h.cancels⟩

theorem Silence.cons (h : Silence log) (n : Entry (Sigma T) ι T) (hn : n.received = none) :
    Silence (n :: log) := by
  intro newer older heq
  cases newer with
  | nil => rfl
  | cons m newer =>
      rw [List.cons_append, List.cons.injEq] at heq
      rw [received_cons, ← heq.1, hn, h newer older heq.2]
      rfl

/-- Before the first `Cancel` anything may be delivered. -/
theorem silence_of_not_cancelCalled (h : cancelCalled log = false) : Silence log := by
  intro newer older heq
  rw [heq] at h
  simp [cancelCalled] at h

/-- An error that was delivered stays delivered. -/
theorem errorSent_mono (n : Entry (Sigma T) ι T) (h : errorSent log = true) :
    errorSent (n :: log) = true := by
  rw [errorSent, received_cons, List.any_append, Bool.or_eq_true]
  exact Or.inl h

/-- An error that is the last event was delivered. -/
theorem errorSent_of_getLast (e : StatusOr (Sigma T)) (herr : e.isError = true)
    (h : (received log).getLast? = some e) : errorSent log = true := by
  rw [errorSent, List.any_eq_true]
  exact ⟨e, List.mem_of_getLast? h, herr⟩

/-- A call that says nothing of any upstream and delivers nothing. -/
theorem Core.note (h : Core s views kinds log now) (n : Entry (Sigma T) ι T)
    (hs : ∀ q, Same q log (n :: log)) (hn : n.received = none) :
    Core s views kinds (n :: log) now :=
  { h with
    known := fun p u hu => (h.known p u hu).same (hs p)
    later := fun p hp => (h.later p hp).same (hs p)
    view := fun p hv => by
      rw [(hs p).cancels, (hs p).arrived, (hs p).tokens]
      exact h.view p hv
    output := by
      rw [received_cons, hn, Option.toList_none, List.append_nil]
      exact h.output
    passed := fun p u hu hnone => by
      rw [(hs p).sent, received_cons, hn, Option.toList_none, List.append_nil]
      exact h.passed p u hu hnone
    silence := h.silence.cons n hn }

/-- An event may be delivered as long as the shutdown has not begun. -/
theorem Core.deliver (h : Core s views kinds log now) (e : StatusOr (Sigma T))
    (hdown : down log = false) : Core s views kinds (.out (.onNext e) :: log) now := by
  rw [down, Bool.or_eq_false_iff] at hdown
  exact
    { h with
      known := fun p u hu => (h.known p u hu).same (same_out p _)
      later := fun p hp => (h.later p hp).same (same_out p _)
      view := fun p hv => by
        rw [(same_out p _).cancels, (same_out p _).arrived, (same_out p _).tokens]
        exact h.view p hv
      output := by
        simp only [received_cons, Entry.received, Signal.event?, Option.toList_some,
          List.dropLast_concat]
        intro x hx
        have hany := hdown.2
        rw [errorSent, List.any_eq_false] at hany
        simpa using hany x hx
      passed := fun p u hu hnone x hx herr => by
        have hout := errorSent_of_getLast x herr
          (h.passed p u hu hnone x ((same_out p (.onNext e)).sent ▸ hx) herr)
        exact absurd (hout.symm.trans hdown.2) (by decide)
      silence := silence_of_not_cancelCalled (by
        simpa [cancelCalled] using hdown.1) }

/-- One upstream subscriber is replaced, with calls that concern this upstream
    alone. -/
theorem Core.replace (h : Core s views kinds log now) (s' : MergeStream (Sigma T))
    (log' : Log (Sigma T) ι T) (p : Nat) (u u' : MergeUpstreamSubscriber (Sigma T))
    (hu : s.upstreamSubscribers[p]? = some u)
    (hups : s'.upstreamSubscribers = s.upstreamSubscribers.set p u')
    (hended : s'.hasEnded = s.hasEnded) (hlock : s'.selfLock = s.selfLock)
    (hindex : s'.currentIndex = s.currentIndex)
    (halive : u'.alive = true → u.alive = true) (hatt : u'.attached = true → u.attached = true)
    (now' : Option Nat) (hnow : ∀ q, q ≠ p → (now' == some q) = (now == some q))
    (hknown : Known log' (now' == some p) p u') (hsame : ∀ q, q ≠ p → Same q log log')
    (hview : views p = true → 1 ≤ cancels p log' ∨ RxCppUniq.ended (arrived p log') = true ∨
      (arrived p log').length < tokens p log')
    (hpassed : u'.next = none →
      ∀ e ∈ sent p log', e.isError = true → (received log).getLast? = some e)
    (hrec : received log' = received log) (hsil : Silence log') :
    Core s' views kinds log' now' := by
  have hlt : p < s.upstreamSubscribers.length := (List.getElem?_eq_some_iff.mp hu).1
  have hmem : u ∈ s.upstreamSubscribers := List.mem_of_getElem? hu
  refine ⟨?_, ?_, ?_, ?_, ?_, ?_, ?_, ?_, ?_, ?_, hsil⟩
  · rw [hups, List.length_set]; exact h.size
  -- of the other upstreams nothing changes, so only the one at `p` is looked at anew
  · intro q v hv
    rw [hups] at hv
    by_cases hq : q = p
    · subst hq
      rw [List.getElem?_set_self hlt, Option.some.injEq] at hv
      exact hv ▸ hknown
    · rw [List.getElem?_set_ne (Ne.symm hq)] at hv
      rw [hnow q hq]
      exact (h.known q v hv).same (hsame q hq)
  · intro q hq
    have hne : q ≠ p := by
      have hsize := h.size
      omega
    exact (h.later q hq).same (hsame q hne)
  · intro q hv
    by_cases hq : q = p
    · exact hq ▸ hview (hq ▸ hv)
    · rw [(hsame q hq).cancels, (hsame q hq).arrived, (hsame q hq).tokens]
      exact h.view q hv
  -- an ended stream keeps no upstream subscriber, and the new one is held by no more
  -- than the old
  · intro hend v hv
    rw [hended] at hend
    rw [hups] at hv
    rcases List.mem_or_eq_of_mem_set hv with hv | rfl
    · exact h.ended hend v hv
    · by_contra hne
      rw [Bool.not_eq_false] at hne
      exact absurd ((h.ended hend u hmem).symm.trans (halive hne)) (by decide)
  · intro hun v hv
    rw [hlock] at hun
    rw [hups] at hv
    rcases List.mem_or_eq_of_mem_set hv with hv | rfl
    · exact h.lock hun v hv
    · by_contra hne
      rw [Bool.not_eq_false] at hne
      exact absurd ((h.lock hun u hmem).symm.trans (hatt hne)) (by decide)
  · rw [hindex, hups, List.length_set]; exact h.index
  · intro hnil
    rw [hups] at hnil
    have hzero := congrArg List.length hnil
    rw [List.length_set, List.length_nil] at hzero
    omega
  · rw [hrec]; exact h.output
  · intro q v hv hnone
    rw [hrec]
    rw [hups] at hv
    by_cases hq : q = p
    · subst hq
      rw [List.getElem?_set_self hlt, Option.some.injEq] at hv
      exact hpassed (hv ▸ hnone)
    · rw [List.getElem?_set_ne (Ne.symm hq)] at hv
      rw [(hsame q hq).sent]
      exact h.passed q v hv hnone

end Plumbing

section Facts

variable {s s' : MergeStream (Sigma T)} {views : Nat → Bool} {log : Log (Sigma T) ι T}
  {mode : Mode (Sigma T)}

@[simp] theorem down_cons (n : Entry (Sigma T) ι T) (hr : n.received = none)
    (hx : Entry.isCancel n = false) : down (n :: log) = down log := by
  simp only [down, cancelCalled, errorSent, List.any_cons, hx, received_cons, hr,
    Option.toList_none, List.append_nil, Bool.false_or]

/-- A call that delivers nothing and begins nothing changes no facts. -/
theorem Mode.Facts.note (h : mode.Facts s views log) (hne : log ≠ [])
    (n : Entry (Sigma T) ι T) (hsub : n.subscribes = false) (hr : n.received = none)
    (hx : Entry.isCancel n = false) : mode.Facts s views (n :: log) := by
  have hdown : down (n :: log) = down log := down_cons n hr hx
  have hsubs : subscribed (n :: log) = subscribed log := by
    rw [subscribed_cons, hsub, Bool.false_or]
  have hcall : cancelCalled (n :: log) = cancelCalled log := by
    simp only [cancelCalled, List.any_cons, hx, Bool.false_or]
  have herr : errorSent (n :: log) = errorSent log := by
    simp only [errorSent, received_cons, hr, Option.toList_none, List.append_nil]
  have hcons := List.cons_ne_nil n log
  -- the facts read the log through these four functions only
  cases mode with
  | fresh => exact absurd h.1 hne
  | setup =>
      simp only [Mode.Facts, hdown, hsubs] at h ⊢
      exact ⟨hcons, h.2⟩
  | setupLoop =>
      simp only [Mode.Facts, hdown, hsubs] at h ⊢
      exact ⟨hcons, h.2⟩
  | resting r =>
      simp only [Mode.Facts, hdown, hcall, herr] at h ⊢
      exact ⟨hcons, h.2⟩
  | looping =>
      simp only [Mode.Facts, hdown] at h ⊢
      exact ⟨hcons, h.2⟩
  | consuming e =>
      simp only [Mode.Facts, hdown] at h ⊢
      exact ⟨hcons, h.2⟩
  | cancelling i r =>
      simp only [Mode.Facts, hdown, herr] at h ⊢
      exact ⟨hcons, h.2⟩
  | cancelled i r =>
      simp only [Mode.Facts, hdown, herr] at h ⊢
      exact ⟨hcons, h.2⟩

/-- The facts look at an upstream subscriber only for whether the stream has a
    pointer to it and whether it has its subscription. -/
theorem Mode.Facts.replace (h : mode.Facts s views log) (s' : MergeStream (Sigma T)) (p : Nat)
    (u u' : MergeUpstreamSubscriber (Sigma T)) (hu : s.upstreamSubscribers[p]? = some u)
    (hups : s'.upstreamSubscribers = s.upstreamSubscribers.set p u')
    (hatt : u'.attached = u.attached)
    (hsub : u.upstreamSubscription.isSome = true → u'.upstreamSubscription.isSome = true)
    (hended : s'.hasEnded = s.hasEnded) (hlock : s'.selfLock = s.selfLock)
    (hdel : s'.delivering = s.delivering) (hreq : s'.requestBalance = s.requestBalance) :
    mode.Facts s' views log := by
  have hlt : p < s.upstreamSubscribers.length := (List.getElem?_eq_some_iff.mp hu).1
  -- every new subscriber stands where an old one stood, and every old one is still
  -- there
  have hback (q : Nat) (v' : MergeUpstreamSubscriber (Sigma T))
      (hv' : s'.upstreamSubscribers[q]? = some v') :
      ∃ v, s.upstreamSubscribers[q]? = some v ∧ v'.attached = v.attached ∧
        (v.upstreamSubscription.isSome = true → v'.upstreamSubscription.isSome = true) := by
    rw [hups] at hv'
    by_cases hq : q = p
    · subst hq
      rw [List.getElem?_set_self hlt, Option.some.injEq] at hv'
      subst hv'
      exact ⟨u, hu, hatt, hsub⟩
    · rw [List.getElem?_set_ne (Ne.symm hq)] at hv'
      exact ⟨v', hv', rfl, id⟩
  have hforth (q : Nat) (v : MergeUpstreamSubscriber (Sigma T))
      (hv : s.upstreamSubscribers[q]? = some v) :
      ∃ v', s'.upstreamSubscribers[q]? = some v' ∧ v'.attached = v.attached := by
    rw [hups]
    by_cases hq : q = p
    · subst hq
      rw [hu, Option.some.injEq] at hv
      exact ⟨u', List.getElem?_set_self hlt, by rw [← hv, hatt]⟩
    · exact ⟨v, by rw [List.getElem?_set_ne (Ne.symm hq), hv], rfl⟩
  have hdet (hd : Detached s) : Detached s' := by
    intro v' hv'
    rcases List.mem_iff_getElem?.mp hv' with ⟨q, hq⟩
    rcases hback q v' hq with ⟨v, hv, hva, -⟩
    exact hva.trans (hd v (List.mem_of_getElem? hv))
  cases mode with
  -- there is no upstream yet to be replaced
  | fresh =>
      rw [h.2] at hlt
      exact absurd hlt (Nat.not_lt_zero _)
  | setup =>
      simp only [Mode.Facts, hended, hlock, hreq] at h ⊢
      exact h
  | setupLoop =>
      simp only [Mode.Facts, hended, hlock, hreq] at h ⊢
      exact h
  | resting r =>
      simp only [Mode.Facts, hdel] at h ⊢
      exact ⟨h.1, h.2.1, fun hd => (h.2.2.1 hd).imp hdet id, h.2.2.2.1,
        fun hr => hdet (h.2.2.2.2 hr)⟩
  | looping =>
      simp only [Mode.Facts, hdel, hended] at h ⊢
      exact ⟨h.1, h.2.1, h.2.2.1, fun hd => hdet (h.2.2.2 hd)⟩
  | consuming e =>
      simp only [Mode.Facts, hdel, hended, hlock, hreq] at h ⊢
      exact h
  | cancelling i r =>
      simp only [Mode.Facts, hdel, hended] at h ⊢
      refine ⟨h.1, h.2.1, h.2.2.1, h.2.2.2.1, h.2.2.2.2.1, fun hr => hdet (h.2.2.2.2.2.1 hr), ?_⟩
      intro q v' hv' hva'
      rcases hback q v' hv' with ⟨v, hv, hva, hvs⟩
      have hready := h.2.2.2.2.2.2 q v hv (hva.symm.trans hva')
      exact ⟨hready.1, hvs hready.2.1, hready.2.2⟩
  | cancelled i r =>
      simp only [Mode.Facts, hdel] at h ⊢
      rcases h with ⟨hne, hd, hdown, herr, hfin, ⟨v, hv, hva⟩, hrest⟩
      refine ⟨hne, hd, hdown, herr, fun hr => hdet (hfin hr), ?_, ?_⟩
      · rcases hforth i v hv with ⟨v', hv', hva'⟩
        exact ⟨v', hv', hva'.trans hva⟩
      · intro q w' hw' hwa'
        rcases hback q w' hw' with ⟨w, hw, hwa, hws⟩
        have hready := hrest q w hw (hwa.symm.trans hwa')
        exact ⟨hready.1, fun hne => ⟨hws (hready.2 hne).1, (hready.2 hne).2⟩⟩

end Facts

section Steps

variable {publisher : MergePublisher ι} {st : Open (component T publisher)}
  {s' : MergeStream (Sigma T)} {mode : Mode (Sigma T)}

/-- The tracked frames of a stack, the innermost first. -/
def trackedFrames (stack : List (Callee × Point V)) : List (Point V) :=
  (stack.map Prod.snd).filter Point.tracked

/-- `MaybeDeliver` starts its loop or returns at once. -/
theorem intact_maybeDeliver (hturn : mode.turn = .outside)
    (hframes : trackedFrames st.stack = mode.frames)
    (hcore : Core s' st.views st.kinds st.log mode.now)
    (hfacts : mode.Facts s' st.views st.log) (hne : st.log ≠ [])
    (hcalm : mode.now = none ∨ s'.delivering = true) (hend : s'.hasEnded = false) :
    ∃ mode', Intact mode' (Open.perform subscriptionCheck st s'.maybeDeliver) := by
  unfold maybeDeliver
  cases hdel : s'.delivering with
  -- a loop that is running already will see the change
  | true => exact ⟨mode, hturn.symm, hframes, hcore, hfacts⟩
  | false =>
      have hcore' : Core { s' with delivering := true } st.views st.kinds st.log mode.now :=
        { hcore with }
      simp only [Bool.false_eq_true, if_false, Open.perform_goto]
      cases mode with
      | fresh => exact absurd hfacts.1 hne
      | setup => exact ⟨.setupLoop, rfl, hframes, hcore', hfacts⟩
      | setupLoop => exact absurd hturn (by simp [Mode.turn])
      | resting r =>
          have hr : r = .none := by
            by_contra hr
            exact absurd (hdel.symm.trans (hfacts.2.1 hr)) (by decide)
          subst hr
          refine ⟨.looping, rfl, hframes, hcore', hne, rfl, hend, fun hd => ?_⟩
          exact (hfacts.2.2.1 hd).resolve_right fun hf => absurd hf.1 (by simp)
      | looping => exact absurd hturn (by simp [Mode.turn])
      | consuming e => exact absurd (hdel.symm.trans hfacts.2.1) (by decide)
      | cancelling i r => exact absurd hturn (by simp [Mode.turn])
      -- only a call from outside could find the loops at rest here, and then it is calm
      | cancelled i r =>
          rcases hcalm with hnone | htrue
          · exact absurd hnone (by simp [Mode.now])
          · exact absurd (hdel.symm.trans htrue) (by decide)

/-- Letting go of the stream destroys it only when the loops are at rest. -/
theorem intact_release (hturn : mode.turn = .outside)
    (hframes : trackedFrames st.stack = mode.frames)
    (hcore : Core s' st.views st.kinds st.log mode.now)
    (hfacts : mode.Facts s' st.views st.log) (hne : st.log ≠ []) :
    Intact mode (Open.perform subscriptionCheck st s'.release) := by
  unfold release
  by_cases hheld : (s'.held || s'.hasEnded) = true
  · simp only [hheld, if_true]
    exact ⟨hturn.symm, hframes, hcore, hfacts⟩
  · rw [Bool.not_eq_true] at hheld
    simp only [hheld, Bool.false_eq_true, if_false, Open.perform_out]
    rw [Bool.or_eq_false_iff] at hheld
    rcases hheld with ⟨hheld, -⟩
    simp only [held, Bool.or_eq_false_iff, List.any_eq_false] at hheld
    have hdead : ∀ u ∈ s'.upstreamSubscribers, u.alive = false := by simpa using hheld.2
    have hcore' : Core { s' with hasEnded := true } st.views st.kinds
        (.out .destroy :: st.log) mode.now :=
      (show Core { s' with hasEnded := true } st.views st.kinds st.log mode.now from
        { hcore with ended := fun _ => hdead }).note _ (fun q => same_out q _) rfl
    have hfacts' := hfacts.note hne (.out .destroy) rfl rfl rfl
    refine ⟨hturn.symm, hframes, hcore', ?_⟩
    -- nothing holds the stream any more, which excludes every mode in which a loop or
    -- the setting up holds it
    cases mode with
    | fresh => exact absurd hfacts.1 hne
    | setup => exact absurd (hfacts.2.2.2.1.symm.trans hheld.1.1) (by decide)
    | setupLoop => exact absurd hturn (by simp [Mode.turn])
    | resting r => exact hfacts'
    | looping => exact absurd hturn (by simp [Mode.turn])
    | consuming e => exact absurd (hfacts.2.2.2.1.symm.trans hheld.1.1) (by decide)
    | cancelling i r => exact absurd hturn (by simp [Mode.turn])
    -- the upstream being cancelled still has its subscriber
    | cancelled i r =>
        rcases hfacts.2.2.2.2.2.1 with ⟨u, hu, hua⟩
        have hno := hdead u (List.mem_of_getElem? hu)
        rw [MergeUpstreamSubscriber.alive, hua, Bool.true_or] at hno
        exact absurd hno (by decide)

theorem Intact.log_ne_nil (h : Intact mode st) (p : Nat) (i : ι) (kind : st.kinds[p]? = some i) :
    st.log ≠ [] := by
  have hsize := h.core.size
  have hlt := (List.getElem?_eq_some_iff.mp kind).1
  have hfacts := h.facts
  cases mode with
  | fresh =>
      rw [hfacts.2] at hsize
      exact absurd (hsize ▸ hlt) (Nat.not_lt_zero _)
  | setup => exact hfacts.1
  | setupLoop => exact hfacts.1
  | resting r => exact hfacts.1
  | looping => exact hfacts.1
  | consuming e => exact hfacts.1
  | cancelling i r => exact hfacts.1
  | cancelled i r => exact hfacts.1

theorem Intact.upstream (h : Intact mode st) (p : Nat) (i : ι) (kind : st.kinds[p]? = some i) :
    ∃ u, st.state.upstreamSubscribers[p]? = some u := by
  have hsize := h.core.size
  have hlt := (List.getElem?_eq_some_iff.mp kind).1
  exact ⟨_, List.getElem?_eq_getElem (by omega)⟩

/-- An upstream confirms its subscription and is asked for its first event. -/
theorem intact_onSubscribe (h : Intact mode st) (hturn : st.turn = .outside) (p : Nat) (i : ι)
    (kind : st.kinds[p]? = some i) (hok : Protocol.stream p st.log (.onSubscribe : Signal (T i))) :
    Intact mode (Open.perform subscriptionCheck
      { st with log := .said p i .onSubscribe :: st.log }
      ((component T publisher).said st.views st.state p i .onSubscribe)) := by
  rcases h.upstream p i kind with ⟨u, hu⟩
  have hne := h.log_ne_nil p i kind
  have hk := h.core.known p u hu
  rcases hok with ⟨hconf, hrel⟩
  -- it has not confirmed before, so nothing was asked of it
  cases hk.progress with
  | asked hc => exact absurd (hconf.symm.trans hc) (by decide)
  | holding e hc => exact absurd (hconf.symm.trans hc) (by decide)
  | spent hc => exact absurd (hconf.symm.trans hc) (by decide)
  | waiting _ hn ht ha hatt hx =>
      have hnow : (mode.now == some p) = false := by
        by_contra hnow
        rw [Bool.not_eq_false] at hnow
        have hone := hk.cancelled hnow
        omega
      -- a subscription that was never used has not come to its end
      have hview : st.views p = false := by
        by_contra hv
        rw [Bool.not_eq_false] at hv
        have hwhy := h.core.view p hv
        rw [hx, ha, ht] at hwhy
        simp [ended] at hwhy
      have hsub : u.upstreamSubscription = none := by rw [hk.subscription, hconf]; rfl
      simp only [component, onSubscribe, hu, hsub, Option.isSome_none, Bool.false_eq_true, if_false]
      rw [Open.perform_ask _ _ _ _ _ _ (by simp only [hview, subscriptionCheck_false])]
      refine ⟨h.turn ▸ hturn.symm, h.frames, ?_, ?_⟩
      · refine h.core.replace (st.state.setUpstream p { u with upstreamSubscription := some p })
          (.ask p (.request 1) :: .said p i .onSubscribe :: st.log) p u _ hu rfl rfl rfl rfl id id
          mode.now (fun _ _ => rfl) ?_ (fun q hq => (same_said (Ne.symm hq) i _).trans
            (same_ask (Ne.symm hq) _)) ?_ (fun _ => by simp [sent_eq_nil p st.log ha]) (by simp)
            ((h.core.silence.cons _ rfl).cons _ rfl)
        · refine ⟨by simp, by simpa using hk.wrapped, ?_, by simpa using hk.held, ?_, ?_, ?_⟩
          · exact .asked (by simp) hn (by simp [ha]) (by simp [ha, ht])
          · simpa using hk.cancelled
          · simpa using hk.attached
          · simpa using hk.detached
        · intro hv
          exact absurd (hview.symm.trans hv) (by decide)
      · have hnote := (h.facts.note hne (.said p i .onSubscribe) rfl rfl rfl).note
          (List.cons_ne_nil _ _) (.ask p (.request 1)) rfl rfl rfl
        exact hnote.replace _ p u { u with upstreamSubscription := some p } hu rfl rfl
          (fun _ => rfl) rfl rfl rfl rfl

/-- An upstream subscriber that its upstream can still reach keeps the stream
    alive. -/
theorem Core.not_ended {s : MergeStream (Sigma T)} {views : Nat → Bool} {kinds : List ι}
    {log : Log (Sigma T) ι T} {now : Option Nat} (h : Core s views kinds log now) (p : Nat)
    (u : MergeUpstreamSubscriber (Sigma T)) (hu : s.upstreamSubscribers[p]? = some u)
    (halive : u.alive = true) : s.hasEnded = false := by
  by_contra hend
  rw [Bool.not_eq_false] at hend
  have hdead := h.ended hend u (List.mem_of_getElem? hu)
  exact absurd (hdead.symm.trans halive) (by decide)

/-- While the upstreams are not being cancelled no upstream is. -/
theorem Intact.calm (h : Intact mode st) (hcalm : Calm st) : mode.now = none := by
  cases mode with
  | cancelled i r =>
      have hmem : Point.cancelled i ∈ trackedFrames st.stack := by
        rw [trackedFrames, h.frames]
        exact List.mem_cons_self
      rcases List.mem_map.mp (List.mem_filter.mp hmem).1 with ⟨f, hf, heq⟩
      have hno := hcalm f hf
      rw [heq] at hno
      exact absurd hno (by simp [Point.inCancel])
  | _ => rfl

/-- An event arrives and is kept, and `MaybeDeliver` is set going. -/
theorem intact_onNext (h : Intact mode st) (hturn : st.turn = .outside) (p : Nat) (i : ι)
    (kind : st.kinds[p]? = some i) (e : StatusOr (T i))
    (hok : Protocol.stream p st.log (.onNext e))
    (hlive : some e.code = some .ok → st.views p = false)
    (hcalm : Calm st ∨ st.state.delivering = true) :
    ∃ mode', Intact mode' (Open.perform subscriptionCheck
      { st with log := .said p i (.onNext e) :: st.log }
      ((component T publisher).said st.views st.state p i (.onNext e))) := by
  rcases h.upstream p i kind with ⟨u, hu⟩
  have hne := h.log_ne_nil p i kind
  have hk := h.core.known p u hu
  rcases hok with ⟨hconf, hrel, hstrict⟩
  rw [strict_append, ← ended_eq_false] at hstrict
  have halive : u.alive = true := by
    rw [MergeUpstreamSubscriber.alive, hk.wrapped, hrel]
    exact Bool.or_true _
  have hend := h.core.not_ended p u hu halive
  -- one event was asked for and none is kept, or the upstream would exceed its demand
  cases hk.progress with
  | waiting hc => exact absurd (hconf.symm.trans hc) (by decide)
  | holding _ _ _ _ ht => omega
  | spent _ _ _ ht => omega
  | asked _ hn _ ht =>
      simp only [component, onNext, hu, hn, Option.isSome_none, Bool.false_eq_true, if_false,
        upstreamSubscriberStateChanged, Int.zero_lt_one, if_true]
      refine intact_maybeDeliver (h.turn ▸ hturn) h.frames ?_ ?_ (List.cons_ne_nil _ _) ?_ hend
      · refine h.core.replace
          ((st.state.setUpstream p { u with next := some (inVariant i e) }).addAvailable 1)
          (.said p i (.onNext e) :: st.log) p u _ hu rfl rfl rfl rfl id id mode.now
          (fun _ _ => rfl) ?_ (fun q hq => same_said (Ne.symm hq) i _) ?_ ?_ (by simp)
          (h.core.silence.cons _ rfl)
        · refine ⟨by simpa using hk.subscription, by simpa using hk.wrapped, ?_, by simp,
            by simpa using hk.cancelled, by simpa using hk.attached, ?_⟩
          · exact .holding (inVariant i e) (by simpa using hconf) rfl
              ⟨arrived p st.log, by simp, hstrict.2⟩ (by simp [ht])
          · intro hnow hdet
            -- a detached subscriber was cancelled, or its end was taken before
            rcases hk.detached hnow hdet with hone | ⟨hzero, hover⟩
            · exact Or.inl (by simpa using hone)
            · exact absurd (hstrict.2.symm.trans hover) (by decide)
        · intro hv
          right; left
          simp only [arrived_cons, Entry.arrived, if_true, Signal.event?, Option.map_some,
            Option.toList_some, ended_append, ended_singleton, hstrict.2, Bool.false_or, bne_iff_ne]
          intro hcode
          exact absurd ((hlive (congrArg some hcode)).symm.trans hv) (by decide)
        · intro hnone
          exact absurd hnone (by simp)
      · exact (h.facts.note hne (.said p i (.onNext e)) rfl rfl rfl).replace _ p u
          { u with next := some (inVariant i e) } hu rfl rfl id rfl rfl rfl rfl
      · exact hcalm.imp h.calm id

/-- An upstream destroys the wrapper of its subscriber. -/
theorem intact_destroyWrapper (h : Intact mode st) (hturn : st.turn = .outside) (p : Nat) (i : ι)
    (kind : st.kinds[p]? = some i) :
    Intact mode (Open.perform subscriptionCheck
      { st with log := .said p i .destroy :: st.log }
      ((component T publisher).said st.views st.state p i .destroy)) := by
  rcases h.upstream p i kind with ⟨u, hu⟩
  have hne := h.log_ne_nil p i kind
  have hk := h.core.known p u hu
  simp only [component, destroyWrapper, hu]
  refine intact_release (h.turn ▸ hturn) h.frames ?_ ?_ (List.cons_ne_nil _ _)
  · refine h.core.replace (st.state.setUpstream p { u with wrapped := false })
      (.said p i .destroy :: st.log) p u _ hu rfl rfl rfl rfl ?_ id mode.now (fun _ _ => rfl) ?_
      (fun q hq => same_said (Ne.symm hq) i _) ?_ ?_ (by simp) (h.core.silence.cons _ rfl)
    -- without its wrapper the subscriber is alive only through the stream's pointer
    · intro halive
      simp only [MergeUpstreamSubscriber.alive, Bool.or_false] at halive
      rw [MergeUpstreamSubscriber.alive, halive, Bool.true_or]
    · refine ⟨by simpa using hk.subscription, by simp, ?_, by simpa using hk.held,
        by simpa using hk.cancelled, by simpa using hk.attached, by simpa using hk.detached⟩
      cases hk.progress with
      | waiting hc hn ht ha hatt hx =>
          exact .waiting (by simpa using hc) hn (by simpa using ht) (by simpa using ha) hatt
            (by simpa using hx)
      | asked hc hn ho ht =>
          exact .asked (by simpa using hc) hn (by simpa using ho) (by simpa using ht)
      | holding e hc hn ho ht =>
          exact .holding e (by simpa using hc) hn (by simpa using ho) (by simpa using ht)
      | spent hc hn ho ht hd =>
          exact .spent (by simpa using hc) hn (by simpa using ho) (by simpa using ht) hd
    · intro hv
      simpa using h.core.view p hv
    · intro hnone
      simpa using h.core.passed p u hu hnone
  · exact (h.facts.note hne (.said p i .destroy) rfl rfl rfl).replace _ p u
      { u with wrapped := false } hu rfl rfl id rfl rfl rfl rfl

/-- A new upstream, which nothing has reached yet. -/
theorem Core.make {s : MergeStream (Sigma T)} {views : Nat → Bool} {kinds : List ι}
    {log : Log (Sigma T) ι T} (h : Core s views kinds log none) (hend : s.hasEnded = false)
    (hlock : s.selfLock = true) (i : ι) :
    Core { s with upstreamSubscribers := s.upstreamSubscribers ++ [{}] } views (kinds ++ [i])
      (.ask kinds.length .subscribe :: log) none := by
  have hsize := h.size
  have hsilent := h.later kinds.length (Nat.le_refl _)
  have hsame (q : Nat) : Same q log (.ask kinds.length .subscribe :: log) :=
    same_cons q _ rfl rfl (by simp) rfl rfl
  refine ⟨?_, ?_, ?_, ?_, ?_, ?_, ?_, ?_, ?_, ?_, h.silence.cons _ rfl⟩
  · simp only [List.length_append, List.length_singleton, hsize]
  · intro p u hu
    -- the new subscriber is the last one
    rcases Nat.lt_or_ge p s.upstreamSubscribers.length with hlt | hge
    · rw [List.getElem?_append_left hlt] at hu
      exact (h.known p u hu).same (hsame p)
    · rw [List.getElem?_append_right hge] at hu
      have hp : p = kinds.length := by
        have hlt := (List.getElem?_eq_some_iff.mp hu).1
        rw [List.length_singleton] at hlt
        omega
      have hu' : u = {} := by
        rw [hp, hsize, Nat.sub_self] at hu
        simpa using hu.symm
      subst hu' hp
      have hnew := hsilent.same (hsame kinds.length)
      refine ⟨by rw [hnew.confirmed]; rfl, by rw [hnew.released]; rfl, ?_,
        fun e he => absurd he (by simp), fun hnow => absurd hnow (by simp), fun _ _ => hnew.cancels,
        fun _ hdet => absurd hdet (by simp)⟩
      exact .waiting hnew.confirmed rfl hnew.tokens hnew.arrived rfl hnew.cancels
  · intro p hp
    rw [List.length_append, List.length_singleton] at hp
    exact (h.later p (by omega)).same (hsame p)
  · intro p hv
    rw [(hsame p).cancels, (hsame p).arrived, (hsame p).tokens]
    exact h.view p hv
  · intro hended
    exact absurd (hend.symm.trans hended) (by decide)
  · intro hunlocked
    exact absurd (hlock.symm.trans hunlocked) (by decide)
  · have hindex := h.index
    simp only [List.length_append, List.length_singleton]
    omega
  · intro hnil
    exact absurd hnil (by simp)
  · simpa using h.output
  · intro p u hu hnone e he
    rw [(hsame p).sent] at he
    rcases Nat.lt_or_ge p s.upstreamSubscribers.length with hlt | hge
    · rw [List.getElem?_append_left hlt] at hu
      simpa using h.passed p u hu hnone e he
    · rw [sent_eq_nil p log (h.later p (hsize ▸ hge)).arrived] at he
      exact absurd he List.not_mem_nil

/-- The next upstream is subscribed, or the subscription is confirmed. -/
theorem intact_subscribeNext (hstack : trackedFrames st.stack = [])
    (hcore : Core s' st.views st.kinds st.log none)
    (hfacts : Mode.setup.Facts s' st.views st.log) :
    ∃ mode', Intact mode' (Open.perform subscriptionCheck st (subscribeNext publisher s')) := by
  rcases hfacts with ⟨hne, hsub, hbal, hlock, hend, hdown⟩
  unfold subscribeNext
  cases publisher.upstream[s'.upstreamSubscribers.length]? with
  | none =>
      refine ⟨.resting .none, rfl, hstack, ?_, ?_⟩
      · exact hcore.note (.out .onSubscribe) (fun q => same_out q _) rfl
      · have hdown' : down (.out .onSubscribe :: st.log) = false :=
          (down_cons _ rfl rfl).trans hdown
        refine ⟨List.cons_ne_nil _ _, fun hr => absurd rfl hr, fun hd => ?_,
          fun hr => absurd hr (by simp), fun hr => absurd hr (by simp)⟩
        exact absurd (hdown'.symm.trans hd) (by decide)
  | some i =>
      refine ⟨.setup, rfl, ?_, hcore.make hend hlock i, ?_⟩
      · simp only [Open.perform_make, List.map_cons, List.filter_cons, Point.tracked, if_true,
          Mode.frames]
        rw [show (st.stack.map Prod.snd).filter Point.tracked = [] from hstack]
      · exact ⟨List.cons_ne_nil _ _, hsub, hbal, hlock, hend, (down_cons _ rfl rfl).trans hdown⟩

/-- Nothing has happened before the subscription. -/
theorem Intact.fresh (h : Intact mode st) (hlog : st.log = []) : mode = .fresh := by
  have hfacts := h.facts
  cases mode with
  | fresh => rfl
  | setup => exact absurd hlog hfacts.1
  | setupLoop => exact absurd hlog hfacts.1
  | resting r => exact absurd hlog hfacts.1
  | looping => exact absurd hlog hfacts.1
  | consuming e => exact absurd hlog hfacts.1
  | cancelling i r => exact absurd hlog hfacts.1
  | cancelled i r => exact absurd hlog hfacts.1

theorem intact_subscribe (h : Intact mode st)
    (hok : Protocol.subscriber st.log .subscribe) :
    ∃ mode', Intact mode' (Open.perform subscriptionCheck
      { st with log := .call .subscribe :: st.log }
      ((component T publisher).call st.views st.state .subscribe)) := by
  have hlog : st.log = [] := List.isEmpty_iff.mp hok
  have hmode := h.fresh hlog
  subst hmode
  refine intact_subscribeNext h.frames ?_ ?_
  · have hcore := h.core.note (.call .subscribe) (fun q => same_call q _) rfl
    exact { hcore with lock := fun hlock => absurd hlock (by simp) }
  · rw [h.facts.2]
    refine ⟨List.cons_ne_nil _ _, ?_, rfl, rfl, rfl, ?_⟩
    · rw [hlog]
      rfl
    · rw [hlog]
      rfl

/-- More demand does not touch what the loops rely on. -/
theorem Mode.Facts.request {s : MergeStream (Sigma T)} {views : Nat → Bool}
    {log : Log (Sigma T) ι T} (h : mode.Facts s views log) (hsub : subscribed log = true)
    (n : Nat) : mode.Facts { s with requestBalance := s.requestBalance.add n } views log := by
  cases mode with
  | setup => exact absurd (hsub.symm.trans h.2.1) (by decide)
  | setupLoop => exact absurd (hsub.symm.trans h.2.1) (by decide)
  | consuming e =>
      have hpos : 0 < (s.requestBalance.add n).balance := by
        rw [RequestBalance.balance_add]
        have hold := h.2.2.2.2.2.1
        have hmax : 0 < kMax := by decide
        omega
      exact ⟨h.1, h.2.1, h.2.2.1, h.2.2.2.1, h.2.2.2.2.1, hpos, h.2.2.2.2.2.2⟩
  | fresh =>
      rw [h.1] at hsub
      exact absurd hsub (by simp)
  | resting r => exact h
  | looping => exact h
  | cancelling i r => exact h
  | cancelled i r => exact h

/-- The subscriber requests more. -/
theorem intact_request (h : Intact mode st) (hturn : st.turn = .outside) (n : Nat)
    (hok : Protocol.subscriber st.log (.request n)) (hend : st.state.hasEnded = false)
    (hcalm : Calm st ∨ st.state.delivering = true) :
    ∃ mode', Intact mode' (Open.perform subscriptionCheck
      { st with log := .call (.request n) :: st.log }
      ((component T publisher).call st.views st.state (.request n))) := by
  have hne : st.log ≠ [] := by
    intro hlog
    rw [Protocol.subscriber, hlog] at hok
    exact absurd hok.1 (by simp)
  refine intact_maybeDeliver (h.turn ▸ hturn) h.frames ?_ ?_ (List.cons_ne_nil _ _)
    (hcalm.imp h.calm id) hend
  · have hcore := h.core.note (.call (.request n)) (fun q => same_call q _) rfl
    exact { hcore with }
  · refine (h.facts.note hne (.call (.request n)) rfl rfl rfl).request ?_ n
    rw [subscribed_cons, hok.1]
    rfl

/-- Upstreams that are ready are ready from the first position on. -/
theorem Ready.from {st : Open (component T publisher)} (h : Ready st) :
    ReadyFrom st.state st.views 0 := by
  intro p u hu hatt
  have hmem : (u, p) ∈ st.state.upstreamSubscribers.zipIdx := by
    rw [List.mem_zipIdx_iff_getElem?]
    exact hu
  exact ⟨Nat.zero_le _, h (u, p) hmem hatt⟩

/-- The subscriber cancels. -/
theorem intact_cancel (h : Intact mode st) (hturn : st.turn = .outside)
    (hok : Protocol.subscriber st.log .cancel) (hend : st.state.hasEnded = false)
    (hconsume : ∀ f ∈ st.stack, f.2.inConsume = false) (hcalm : Calm st) (hready : Ready st) :
    ∃ mode', Intact mode' (Open.perform subscriptionCheck
      { st with log := .call .cancel :: st.log }
      ((component T publisher).call st.views st.state .cancel)) := by
  have hsub : subscribed st.log = true := hok
  have hnow := h.calm hcalm
  have hcore := h.core.note (.call .cancel) (fun q => same_call q _) rfl
  have hdown : down (.call .cancel :: st.log) = true := by simp [down, cancelCalled]
  rcases h with ⟨hmode, hframes, -, hfacts⟩
  -- only a stream at rest can be cancelled from a calm place
  cases mode with
  | fresh =>
      rw [hfacts.1] at hsub
      exact absurd hsub (by simp)
  | setup => exact absurd (hsub.symm.trans hfacts.2.1) (by decide)
  | setupLoop => exact absurd (hturn.symm.trans hmode) (by simp [Mode.turn])
  | resting r =>
      refine ⟨.cancelling 0 r, rfl, hframes, hcore, List.cons_ne_nil _ _, hfacts.2.1, hend, hdown,
        fun hr => ?_, hfacts.2.2.2.2, hready.from⟩
      exact errorSent_mono _ (hfacts.2.2.2.1 hr)
  | looping => exact absurd (hturn.symm.trans hmode) (by simp [Mode.turn])
  | consuming e =>
      -- the subscriber would be inside the OnNext of an event being consumed
      have hmem : Point.consumed e ∈ trackedFrames st.stack := by
        rw [trackedFrames, hframes]
        exact List.mem_cons_self
      rcases List.mem_map.mp (List.mem_filter.mp hmem).1 with ⟨f, hf, heq⟩
      have hno := hconsume f hf
      rw [heq] at hno
      exact absurd hno (by simp [Point.inConsume])
  | cancelling i r => exact absurd (hturn.symm.trans hmode) (by simp [Mode.turn])
  | cancelled i r => exact absurd hnow (by simp [Mode.now])

/-- What may be read of an upstream changes. -/
theorem intact_view (h : Intact mode st) (hturn : st.turn = .outside) (p : Nat) (v : Bool)
    (hwhy : 1 ≤ cancels p st.log ∨ ended (arrived p st.log) = true ∨
      (arrived p st.log).length < tokens p st.log)
    (hcalm : Calm st ∨ 1 ≤ cancels p st.log ∨
      ∀ u ∈ st.state.upstreamSubscribers[p]?, u.attached = false) :
    Intact mode { st with views := fun q => if q = p then v else st.views q } := by
  refine ⟨h.turn, h.frames, ?_, ?_⟩
  · refine { h.core with view := fun q hv => ?_ }
    by_cases hq : q = p
    · exact hq ▸ hwhy
    · simp only [hq, if_false] at hv
      exact h.core.view q hv
  · have hfacts := h.facts
    have hmode := h.turn
    have hnow := h.calm
    have hknown := h.core.known
    cases mode with
    | cancelled i r =>
        rcases hfacts with ⟨hne, hdel, hdown, herr, hfin, hcur, hrest⟩
        refine ⟨hne, hdel, hdown, herr, hfin, hcur, fun q u hu hatt => ?_⟩
        rcases hrest q u hu hatt with ⟨hle, hother⟩
        refine ⟨hle, fun hne => ⟨(hother hne).1, ?_⟩⟩
        by_cases hq : q = p
        · subst hq
          -- An upstream still to be cancelled does not end now.
          rcases hcalm with hcalm | hone | hdet
          · exact absurd (hnow hcalm) (by simp [Mode.now])
          · have hzero := (hknown q u hu).attached (by simpa [Mode.now] using Ne.symm hne) hatt
            omega
          · exact absurd ((hdet u hu).symm.trans hatt) (by decide)
        · simp only [hq, if_false]
          exact (hother hne).2
    | cancelling i r => exact absurd (hturn.symm.trans hmode) (by simp [Mode.turn])
    | fresh => exact hfacts
    | setup => exact hfacts
    | setupLoop => exact hfacts
    | resting r => exact hfacts
    | looping => exact hfacts
    | consuming e => exact hfacts

/-- The value that has been consumed is delivered. -/
theorem intact_deliverEvent (event : StatusOr (Sigma T)) (hstack : trackedFrames st.stack = [])
    (hcore : Core st.state st.views st.kinds st.log none)
    (hfacts : (Mode.consuming event).Facts st.state st.views st.log) :
    Intact (.resting .delivered)
      (Open.perform subscriptionCheck st (st.state.deliverEvent event)) := by
  rcases hfacts with ⟨hne, hdel, hend, hlock, hdown, hpos, hval⟩
  rcases RequestBalance.remove_isSome st.state.requestBalance hpos with ⟨b, hb⟩
  simp only [deliverEvent, hend, Bool.false_eq_true, if_false, hb, Open.perform_out]
  have herr : event.isError = false := by
    simp only [StatusOr.isEnd] at hval
    simp only [StatusOr.isError, hval, Bool.false_and]
  have hdown' : down (.out (.onNext event) :: st.log) = false := by
    rw [down, Bool.or_eq_false_iff] at hdown ⊢
    refine ⟨by simpa [cancelCalled] using hdown.1, ?_⟩
    rw [errorSent, received_cons, List.any_append, Bool.or_eq_false_iff]
    exact ⟨hdown.2, by simp [herr]⟩
  refine ⟨rfl, ?_, { hcore.deliver event hdown with ended := fun hno => absurd hno (by simp) },
    List.cons_ne_nil _ _, fun _ => hdel, fun hd => ?_, fun hr => absurd hr (by simp),
    fun hr => absurd hr (by simp)⟩
  · simp only [List.map_cons, List.filter_cons, Point.tracked, if_true]
    rw [show (st.stack.map Prod.snd).filter Point.tracked = [] from hstack]
    rfl
  · exact absurd (hdown'.symm.trans hd) (by decide)

/-- After an upstream has been cancelled the stream has no pointer to its
    subscriber any more. -/
theorem intact_cancelNext (i : Nat) (r : Rest) (hstack : trackedFrames st.stack = r.frames)
    (hcore : Core st.state st.views st.kinds st.log (some i))
    (hfacts : (Mode.cancelled i r).Facts st.state st.views st.log) :
    Intact (.cancelling (i + 1) r) (Open.perform subscriptionCheck st (st.state.cancelNext i)) := by
  rcases hfacts with ⟨hne, hdel, hdown, herr, hfin, ⟨u, hu, hatt⟩, hrest⟩
  have hlt : i < st.state.upstreamSubscribers.length := (List.getElem?_eq_some_iff.mp hu).1
  have hend := hcore.not_ended i u hu (by rw [MergeUpstreamSubscriber.alive, hatt]; rfl)
  have hk := hcore.known i u hu
  have hone := hk.cancelled (by simp)
  simp only [cancelNext, hend, Bool.false_eq_true, if_false, hu, Open.perform_goto]
  -- the one call to Cancel is counted before the pointer is dropped
  refine ⟨rfl, hstack, ?_, hne, hdel, hend, hdown, herr, fun hr => ?_, ?_⟩
  · refine hcore.replace (st.state.setUpstream i { u with attached := false }) st.log i u _ hu
      rfl rfl rfl rfl ?_ (fun hno => absurd hno (by simp)) none (fun q hq => ?_) ?_
      (fun q hq => ⟨rfl, rfl, rfl, rfl, rfl, rfl⟩) (hcore.view i) (hcore.passed i u hu) rfl
      hcore.silence
    · intro _
      rw [MergeUpstreamSubscriber.alive, hatt, Bool.true_or]
    · simpa using Ne.symm hq
    · refine ⟨hk.subscription, hk.wrapped, ?_, hk.held, fun hnow => absurd hnow (by simp),
        fun _ hno => absurd hno (by simp), fun _ _ => Or.inl hone⟩
      cases hk.progress with
      | waiting _ _ _ _ _ hx => omega
      | asked hc hn ho ht => exact .asked hc hn ho ht
      | holding e hc hn ho ht => exact .holding e hc hn ho ht
      | spent hc hn ho ht hd => exact .spent hc hn ho ht rfl
  · intro v hv
    rcases List.mem_or_eq_of_mem_set hv with hv | rfl
    · exact hfin hr v hv
    · rfl
  · intro q v hv hva
    rcases eq_or_ne q i with rfl | hq
    · rw [setUpstream, List.getElem?_set_self hlt, Option.some.injEq] at hv
      rw [← hv] at hva
      exact absurd hva (by simp)
    · rw [setUpstream, List.getElem?_set_ne (Ne.symm hq)] at hv
      rcases hrest q v hv hva with ⟨hle, hother⟩
      exact ⟨by omega, hother hq⟩

/-- The tracked frame on top of the stack is that of the mode. -/
theorem trackedFrames_cons (f : Callee × Point V) (rest : List (Callee × Point V))
    (frames : List (Point V)) (h : trackedFrames (f :: rest) = frames) (ht : f.2.tracked = true) :
    frames = f.2 :: trackedFrames rest := by
  rw [← h, trackedFrames, List.map_cons, List.filter_cons, if_pos ht, trackedFrames]

/-- The modes in which control comes back to a tracked point, with the other
    tracked frames. -/
def Mode.BackTo (mode : Mode V) (frames : List (Point V)) : Point V → Prop
  | .done => True
  | .confirmed => True
  | .subscribing => mode = .setup ∧ frames = []
  | .deliver => False
  | .consumed event => mode = .consuming event ∧ frames = []
  | .delivered => mode = .resting .delivered ∧ frames = []
  | .failed => mode = .resting .failed ∧ frames = []
  | .finished => mode = .resting .finished ∧ frames = []
  | .cancelling _ => False
  | .cancelled i => ∃ r, mode = .cancelled i r ∧ frames = r.frames

theorem Mode.backTo (mode : Mode V) (k : Point V) (frames : List (Point V))
    (hturn : mode.turn = .outside) (h : mode.frames = k :: frames) : mode.BackTo frames k := by
  cases mode with
  | fresh => exact absurd h (by simp [Mode.frames])
  | setup =>
      simp only [Mode.frames, List.cons.injEq] at h
      exact h.1 ▸ ⟨rfl, h.2.symm⟩
  | setupLoop => exact absurd hturn (by simp [Mode.turn])
  | resting r =>
      cases r with
      | none => exact absurd h (by simp [Mode.frames, Rest.frames])
      | delivered =>
          simp only [Mode.frames, Rest.frames, List.cons.injEq] at h
          exact h.1 ▸ ⟨rfl, h.2.symm⟩
      | failed =>
          simp only [Mode.frames, Rest.frames, List.cons.injEq] at h
          exact h.1 ▸ ⟨rfl, h.2.symm⟩
      | finished =>
          simp only [Mode.frames, Rest.frames, List.cons.injEq] at h
          exact h.1 ▸ ⟨rfl, h.2.symm⟩
  | looping => exact absurd hturn (by simp [Mode.turn])
  | consuming e =>
      simp only [Mode.frames, List.cons.injEq] at h
      exact h.1 ▸ ⟨rfl, h.2.symm⟩
  | cancelling i r => exact absurd hturn (by simp [Mode.turn])
  | cancelled i r =>
      simp only [Mode.frames, List.cons.injEq] at h
      exact h.1 ▸ ⟨r, rfl, h.2.symm⟩

/-- A call made by the stream returns. -/
theorem intact_reply (h : Intact mode st) (hturn : st.turn = .outside) (hne : st.log ≠ [])
    (who : Callee) (k : Point (Sigma T)) (rest : List (Callee × Point (Sigma T)))
    (top : st.stack = (who, k) :: rest) (hok : MayReturn st k) :
    ∃ mode', Intact mode' (Open.perform subscriptionCheck { st with stack := rest }
      ((component T publisher).resume st.views st.state k)) := by
  rcases h with ⟨hmode, hframes, hcore, hfacts⟩
  have hturn' : mode.turn = .outside := hmode ▸ hturn
  rw [top] at hframes
  -- A frame that is not tracked leaves the mode as it is.
  have hskip (hk : k.tracked = false) : trackedFrames rest = mode.frames := by
    rw [← hframes, trackedFrames, List.map_cons, List.filter_cons, if_neg (by simp [hk])]
  have hback (hk : k.tracked = true) : mode.BackTo (trackedFrames rest) k :=
    mode.backTo k _ hturn' (trackedFrames_cons (who, k) rest _ hframes hk)
  cases k with
  | done => exact ⟨mode, hturn'.symm, hskip rfl, hcore, hfacts⟩
  | confirmed =>
      refine ⟨mode, intact_release hturn' (hskip rfl) { hcore with } ?_ hne⟩
      cases mode with
      | fresh => exact absurd hfacts.1 hne
      | _ => exact hfacts
  | subscribing =>
      rcases hback rfl with ⟨rfl, hrest⟩
      exact intact_subscribeNext hrest hcore hfacts
  | deliver => exact (hback rfl).elim
  | consumed event =>
      rcases hback rfl with ⟨rfl, hrest⟩
      exact ⟨_, @intact_deliverEvent _ _ _ { st with stack := rest } event hrest hcore hfacts⟩
  | delivered =>
      rcases hback rfl with ⟨rfl, hrest⟩
      refine ⟨.looping, rfl, hrest, hcore, hne, hfacts.2.1 (by simp), hok, fun hd => ?_⟩
      exact (hfacts.2.2.1 hd).resolve_right fun hno => absurd hno.1 (by simp)
  | failed =>
      rcases hback rfl with ⟨rfl, hrest⟩
      rcases hok with ⟨hend, hready⟩
      simp only [component, hend, Bool.false_eq_true, if_false, Open.perform_goto]
      refine ⟨.cancelling 0 .none, rfl, hrest, hcore, hne, fun hr => absurd rfl hr, hend, ?_,
        fun hr => absurd hr (by simp), fun hr => absurd hr (by simp), hready.from⟩
      rw [down, hfacts.2.2.2.1 rfl, Bool.or_true]
  | finished =>
      rcases hback rfl with ⟨rfl, hrest⟩
      have hend : st.state.hasEnded = false := hok
      have hdet := hfacts.2.2.2.2 rfl
      simp only [component, hend, Bool.false_eq_true, if_false]
      refine ⟨.resting .none, intact_release rfl hrest
        { hcore with lock := fun _ => hdet, ended := fun hno => absurd hno (by simp) } ?_ hne⟩
      exact ⟨hne, fun hr => absurd rfl hr, fun _ => Or.inl hdet, fun hr => absurd hr (by simp),
        fun _ => hdet⟩
  | cancelling i => exact (hback rfl).elim
  | cancelled i =>
      rcases hback rfl with ⟨r, rfl, hrest⟩
      exact ⟨_, @intact_cancelNext _ _ _ { st with stack := rest } i r hrest hcore hfacts⟩

/-- One round of the loop of `Cancel`, and what follows the loop. -/
theorem intact_cancelLoop (i : Nat) (r : Rest) (hstack : trackedFrames st.stack = r.frames)
    (hcore : Core st.state st.views st.kinds st.log none)
    (hfacts : (Mode.cancelling i r).Facts st.state st.views st.log) :
    ∃ mode', Intact mode' (Open.perform subscriptionCheck st (st.state.cancelLoop i)) := by
  rcases hfacts with ⟨hne, hdel, hend, hdown, herr, hfin, hready⟩
  simp only [cancelLoop, hend, Bool.false_eq_true, if_false]
  cases hu : st.state.upstreamSubscribers[i]? with
  -- the loop has passed every upstream, and cancelled each that it found attached
  | none =>
      have hdet : Detached st.state := by
        intro u hmem
        rcases List.mem_iff_getElem?.mp hmem with ⟨p, hp⟩
        by_contra hatt
        rw [Bool.not_eq_false] at hatt
        have hle := (hready p u hp hatt).1
        have hlt := (List.getElem?_eq_some_iff.mp hp).1
        rw [List.getElem?_eq_none_iff] at hu
        omega
      refine ⟨.resting r, intact_release rfl hstack
        { hcore with lock := fun _ => hdet, ended := fun hno => absurd hno (by simp) } ?_ hne⟩
      exact ⟨hne, hdel, fun _ => Or.inl hdet, herr, fun _ => hdet⟩
  | some u =>
      have hlt : i < st.state.upstreamSubscribers.length := (List.getElem?_eq_some_iff.mp hu).1
      cases hatt : u.attached with
      -- an upstream that had ended is passed over
      | false =>
          simp only [hatt, Bool.false_eq_true, if_false, Open.perform_goto]
          refine ⟨.cancelling (i + 1) r, rfl, hstack, hcore, hne, hdel, hend, hdown, herr, hfin, ?_⟩
          intro p v hv hva
          rcases hready p v hv hva with ⟨hle, hrest⟩
          refine ⟨?_, hrest⟩
          have hne : p ≠ i := by
            rintro rfl
            rw [hu, Option.some.injEq] at hv
            rw [← hv, hatt] at hva
            exact absurd hva (by decide)
          omega
      -- this one is attached, so it was not cancelled before and is cancelled now
      | true =>
          have hk := hcore.known i u hu
          rcases hready i u hu hatt with ⟨-, hsub, hview⟩
          have hconf : confirmed i st.log = true := by
            by_contra hno
            rw [hk.subscription, if_neg hno] at hsub
            exact absurd hsub (by simp)
          have hzero := hk.attached rfl hatt
          simp only [hatt, if_true, hk.subscription, hconf]
          rw [Open.perform_ask _ _ _ _ _ _ (by simp only [hview, subscriptionCheck_false])]
          have hcancels : cancels i (.ask i .cancel :: st.log) = 1 := by
            rw [cancels_cons, hzero]
            simp
          refine ⟨.cancelled i r, rfl, ?_, ?_, List.cons_ne_nil _ _, hdel, ?_, fun hr => ?_, hfin,
            ⟨u, hu, hatt⟩, fun p v hv hva => ?_⟩
          · simp only [List.map_cons, List.filter_cons, Point.tracked, if_true, Mode.frames]
            rw [show (st.stack.map Prod.snd).filter Point.tracked = r.frames from hstack]
          · refine hcore.replace st.state (.ask i .cancel :: st.log) i u u hu ?_ rfl rfl rfl id id
              (some i) (fun q hq => by simpa using Ne.symm hq) ?_
              (fun q hq => same_ask (Ne.symm hq) _)
              (fun _ => Or.inl (by omega)) ?_ (by simp) (hcore.silence.cons _ rfl)
            · rcases List.getElem?_eq_some_iff.mp hu with ⟨hlt, rfl⟩
              exact (List.set_getElem_self hlt).symm
            · refine ⟨by simpa using hk.subscription, by simpa using hk.wrapped, ?_,
                by simpa using hk.held, fun _ => hcancels, fun hno => absurd hno (by simp),
                fun hno => absurd hno (by simp)⟩
              cases hk.progress with
              | waiting hc => exact absurd (hconf.symm.trans hc) (by decide)
              | asked hc hn ho ht =>
                  exact .asked (by simpa using hc) hn (by simpa using ho) (by simpa using ht)
              | holding e hc hn ho ht =>
                  exact .holding e (by simpa using hc) hn (by simpa using ho) (by simpa using ht)
              | spent hc hn ho ht hd =>
                  exact .spent (by simpa using hc) hn (by simpa using ho) (by simpa using ht) hd
            · intro hnone
              simpa using hcore.passed i u hu hnone
          · exact (down_cons _ rfl rfl).trans hdown
          · exact errorSent_mono _ (herr hr)
          · rcases hready p v hv hva with ⟨hle, hrest⟩
            exact ⟨hle, fun _ => hrest⟩

/-- The last event of an upstream has been consumed. -/
theorem intact_upstreamEnded (i : Nat) (u : MergeUpstreamSubscriber (Sigma T))
    (event : StatusOr (Sigma T)) (hstack : trackedFrames st.stack = [])
    (hdown : down st.log = false) (hne : st.log ≠ []) (hdel : s'.delivering = true)
    (hend : s'.hasEnded = false)
    (hcore : event.isError = false →
      Core (s'.setUpstream i { u with attached := false }) st.views st.kinds st.log none)
    (hsent : event.isError = true →
      Core (s'.setUpstream i { u with attached := false }) st.views st.kinds
        (.out (.onNext event) :: st.log) none) :
    ∃ mode', Intact mode' (Open.perform subscriptionCheck st (s'.upstreamEnded i u event)) := by
  unfold upstreamEnded
  have hdown' := hdown
  rw [down, Bool.or_eq_false_iff] at hdown'
  -- after an error the other upstreams are cancelled when the OnNext returns
  by_cases herr : event.isError = true
  · have hcall : cancelCalled (.out (.onNext event) :: st.log) = false := by
      simpa [cancelCalled] using hdown'.1
    have hout : errorSent (.out (.onNext event) :: st.log) = true := by
      simp [errorSent, herr]
    simp only [herr, if_true, Open.perform_out]
    refine ⟨.resting .failed, rfl, ?_, hsent herr, List.cons_ne_nil _ _, fun _ => hdel,
      fun _ => Or.inr ⟨rfl, hcall⟩, fun _ => hout, fun hr => absurd hr (by simp)⟩
    simp only [List.map_cons, List.filter_cons, Point.tracked, if_true]
    rw [show (st.stack.map Prod.snd).filter Point.tracked = [] from hstack]
    rfl
  · rw [Bool.not_eq_true] at herr
    have hcore' := hcore herr
    simp only [herr, Bool.false_eq_true, if_false]
    -- the last Done ends the stream, any other only this upstream
    by_cases hall : (s'.setUpstream i { u with attached := false }).upstreamSubscribers.all
        (!·.attached) = true
    · have hdet : Detached (s'.setUpstream i { u with attached := false }) := by
        intro v hv
        simpa using List.all_eq_true.mp hall v hv
      simp only [hall, if_true, Open.perform_out]
      refine ⟨.resting .finished, rfl, ?_, hcore'.deliver _ hdown, List.cons_ne_nil _ _,
        fun _ => hdel, fun _ => Or.inl hdet, fun hr => absurd hr (by simp), fun _ => hdet⟩
      simp only [List.map_cons, List.filter_cons, Point.tracked, if_true]
      rw [show (st.stack.map Prod.snd).filter Point.tracked = [] from hstack]
      rfl
    · simp only [hall, Bool.false_eq_true, if_false, Open.perform_goto]
      exact ⟨.looping, rfl, hstack, hcore', hne, hdel, hend,
        fun hd => absurd (hdown.symm.trans hd) (by decide)⟩

/-- The stream lets go of the subscriber of an upstream whose last event has
    been consumed. -/
theorem Core.spend {s : MergeStream (Sigma T)} {views : Nat → Bool} {kinds : List ι}
    {log : Log (Sigma T) ι T} (h : Core s views kinds log none) (s' : MergeStream (Sigma T))
    (i : Nat) (u : MergeUpstreamSubscriber (Sigma T)) (hu : s.upstreamSubscribers[i]? = some u)
    (hups : s'.upstreamSubscribers =
      s.upstreamSubscribers.set i { u with next := none, attached := false })
    (hended : s'.hasEnded = s.hasEnded) (hlock : s'.selfLock = s.selfLock)
    (hindex : s'.currentIndex = s.currentIndex) (hatt : u.attached = true)
    (hover : RxCppUniq.ended (arrived i log) = true) (hconf : confirmed i log = true)
    (hasked : tokens i log = (arrived i log).length)
    (hsent : ∀ e ∈ sent i log, e.isError = true → (received log).getLast? = some e) :
    Core s' views kinds log none := by
  have hk := h.known i u hu
  have hzero := hk.attached rfl hatt
  refine h.replace s' log i u _ hu hups hended hlock hindex ?_ (fun hno => absurd hno (by simp))
    none (fun _ _ => rfl) ?_ (fun q _ => ⟨rfl, rfl, rfl, rfl, rfl, rfl⟩) (h.view i)
    (fun _ => hsent) rfl h.silence
  · intro _
    rw [MergeUpstreamSubscriber.alive, hatt, Bool.true_or]
  · exact ⟨hk.subscription, hk.wrapped, .spent hconf rfl hover hasked rfl,
      fun e he => absurd he (by simp), hk.cancelled,
      fun _ hno => absurd hno (by simp), fun _ _ => Or.inr ⟨hzero, hover⟩⟩

/-- A value is consumed and its upstream is asked for the next, or the upstream
    has ended. -/
theorem intact_consumeNext (i : Nat) (u : MergeUpstreamSubscriber (Sigma T))
    (hstack : trackedFrames st.stack = []) (hu : s'.upstreamSubscribers[i]? = some u)
    (hatt : u.attached = true) (hhas : u.hasNext = true) (hpos : 0 < s'.requestBalance.balance)
    (hcore : Core s' st.views st.kinds st.log none)
    (hfacts : Mode.looping.Facts s' st.views st.log) :
    ∃ mode', Intact mode' (Open.perform subscriptionCheck st (s'.consumeNext i u)) := by
  rcases hfacts with ⟨hne, hdel, hend, hdet⟩
  have hlt : i < s'.upstreamSubscribers.length := (List.getElem?_eq_some_iff.mp hu).1
  have hmem : u ∈ s'.upstreamSubscribers := List.mem_of_getElem? hu
  -- an attached upstream is still there, so the stream was not shut down
  have hdown : down st.log = false := by
    by_contra hd
    rw [Bool.not_eq_false] at hd
    exact absurd ((hdet hd u hmem).symm.trans hatt) (by decide)
  have hlock : s'.selfLock = true := by
    by_contra hl
    rw [Bool.not_eq_true] at hl
    exact absurd ((hcore.lock hl u hmem).symm.trans hatt) (by decide)
  have hk := hcore.known i u hu
  have hzero := hk.attached rfl hatt
  cases hk.progress with
  | waiting _ hn => simp [MergeUpstreamSubscriber.hasNext, hn] at hhas
  | asked _ hn => simp [MergeUpstreamSubscriber.hasNext, hn] at hhas
  | spent _ hn => simp [MergeUpstreamSubscriber.hasNext, hn] at hhas
  | holding event hconf hn hcode ht =>
      -- an upstream sends one error at most, and it is the kept one
      have honly (herr : event.isError = true) (e : StatusOr (Sigma T)) (he : e ∈ sent i st.log)
          (hbad : e.isError = true) : e = event :=
        eq_of_mem_sent i st.log event e hcode (hk.held event hn) herr he hbad
      rcases hcode with ⟨older, harr, holder⟩
      have hend' : ended (arrived i st.log) = event.isEnd := by
        rw [harr, ended_append, ended_singleton, holder, Bool.false_or, StatusOr.isEnd]
      have hbroke : brokeOff (arrived i st.log) = event.isError := by
        rw [isError_eq, harr, brokeOff, List.any_append, brokeOff, Bool.or_eq_right_iff_imp]
        intro hany
        rw [List.any_eq_true] at hany
        rcases hany with ⟨c, hc, hbad⟩
        rw [(ended_eq_false older).mp holder c hc] at hbad
        exact absurd hbad (by decide)
      simp only [consumeNext, hn]
      by_cases hisEnd : event.isEnd = true
      · rw [if_pos hisEnd]
        have hover := hend'.trans hisEnd
        have hset : (s'.upstreamSubscribers.set i { u with next := none }).set i
            { u with next := none, attached := false } =
            s'.upstreamSubscribers.set i { u with next := none, attached := false } :=
          List.set_set _
        refine intact_upstreamEnded i _ event hstack hdown hne hdel hend (fun herr => ?_)
          fun herr => ?_
        · refine hcore.spend _ i u hu hset rfl rfl rfl hatt hover hconf ht fun e he hbad => ?_
          have hb := brokeOff_of_mem_sent i st.log e he hbad
          exact absurd (herr.symm.trans (hbroke.symm.trans hb)) (by decide)
        · -- The error is delivered in the same breath.
          have hs : Same i st.log (.out (.onNext event) :: st.log) := same_out i (.onNext event)
          refine (hcore.deliver event hdown).spend _ i u hu hset rfl rfl rfl hatt
            (by rw [hs.arrived]; exact hover) (by rw [hs.confirmed]; exact hconf)
            (by rw [hs.tokens, hs.arrived]; exact ht) fun e he hbad => ?_
          rw [honly herr e (hs.sent ▸ he) hbad]
          simp
      · rw [if_neg hisEnd]
        rw [Bool.not_eq_true] at hisEnd
        -- an upstream from which a value was taken has not ended, nor was it cancelled
        have hview : st.views i = false := by
          by_contra hv
          rw [Bool.not_eq_false] at hv
          rcases hcore.view i hv with hone | hover | hmore
          · omega
          · exact absurd ((hend'.trans hisEnd).symm.trans hover) (by decide)
          · omega
        simp only [hk.subscription, hconf, if_true]
        rw [Open.perform_ask _ _ _ _ _ _ (by simp only [hview, subscriptionCheck_false])]
        refine ⟨.consuming event, rfl, ?_, ?_, List.cons_ne_nil _ _, hdel, hend, hlock,
          (down_cons _ rfl rfl).trans hdown, hpos, hisEnd⟩
        · simp only [List.map_cons, List.filter_cons, Point.tracked, if_true]
          rw [show (st.stack.map Prod.snd).filter Point.tracked = [] from hstack]
          rfl
        · refine hcore.replace ((s'.setUpstream i
              { u with next := none, upstreamSubscription := some i }).addAvailable (-1))
            (.ask i (.request 1) :: st.log) i u _ hu rfl rfl rfl rfl id id none (fun _ _ => rfl) ?_
            (fun q hq => same_ask (Ne.symm hq) _) ?_ ?_ (by simp) (hcore.silence.cons _ rfl)
          · refine ⟨by simp [hconf], by simpa using hk.wrapped, ?_,
              fun e he => absurd he (by simp), fun hno => absurd hno (by simp),
              fun _ _ => by simpa using hzero,
              fun _ hno => absurd (hno.symm.trans hatt) (by decide)⟩
            exact .asked (by simpa using hconf) rfl (by simpa using hend'.trans hisEnd)
              (by simp [ht])
          · intro hv
            exact absurd (hview.symm.trans hv) (by decide)
          · intro _ e he hbad
            have hb := brokeOff_of_mem_sent i st.log e (by simpa using he) hbad
            have herr : event.isError = true := hbroke.symm.trans hb
            rw [StatusOr.isEnd] at hisEnd
            rw [StatusOr.isError, hisEnd] at herr
            exact absurd herr (by simp)

/-- One round of the loop of `MaybeDeliver`. -/
theorem intact_deliver (hstack : trackedFrames st.stack = [])
    (hcore : Core st.state st.views st.kinds st.log none)
    (hfacts : Mode.looping.Facts st.state st.views st.log) :
    ∃ mode', Intact mode' (Open.perform subscriptionCheck st st.state.deliver) := by
  rcases hfacts with ⟨hne, hdel, hend, hdet⟩
  unfold deliver
  rw [if_neg (by rw [hend]; decide)]
  -- the loop goes on while there is demand and something is available
  by_cases hcond : st.state.loopCondition = true
  · rw [if_pos hcond]
    simp only [loopCondition, Bool.and_eq_true, decide_eq_true_eq] at hcond
    have hlt : st.state.currentIndex < st.state.upstreamSubscribers.length := by
      rcases hcore.index with hlt | hzero
      · exact hlt
      · by_contra hno
        have hempty := hcore.empty (List.eq_nil_iff_length_eq_zero.mpr (by omega))
        omega
    have hcore' : Core { st.state with
        currentIndex := (st.state.currentIndex + 1) % st.state.upstreamSubscribers.length }
        st.views st.kinds st.log none :=
      { hcore with index := Or.inl (Nat.mod_lt _ (by omega)) }
    have hu := List.getElem?_eq_getElem hlt
    simp only [hu]
    -- an upstream with nothing kept is passed over
    by_cases hskip : (!st.state.upstreamSubscribers[st.state.currentIndex].attached ||
        !st.state.upstreamSubscribers[st.state.currentIndex].hasNext) = true
    · rw [if_pos hskip]
      exact ⟨.looping, rfl, hstack, hcore', hne, hdel, hend, hdet⟩
    · rw [if_neg hskip]
      rw [Bool.not_eq_true, Bool.or_eq_false_iff, Bool.not_eq_false', Bool.not_eq_false'] at hskip
      exact intact_consumeNext st.state.currentIndex _ hstack hu hskip.1 hskip.2 hcond.1
        hcore' ⟨hne, hdel, hend, hdet⟩
  · rw [if_neg hcond]
    exact ⟨.resting .none, rfl, hstack, { hcore with }, hne, fun hr => absurd rfl hr,
      fun hd => Or.inl (hdet hd), fun hr => absurd hr (by simp), fun hr => absurd hr (by simp)⟩

/-- The component goes on by itself. -/
theorem intact_run (h : Intact mode st) (k : Point (Sigma T)) (hturn : st.turn = .run k) :
    ∃ mode', Intact mode' (Open.perform subscriptionCheck st
      ((component T publisher).resume st.views st.state k)) := by
  rcases h with ⟨hmode, hframes, hcore, hfacts⟩
  have hk := hturn.symm.trans hmode
  cases mode with
  | setupLoop =>
      simp only [Mode.turn, Turn.run.injEq] at hk
      subst hk
      rcases hfacts with ⟨hne, hsub, hbal, hlock, hend, hdown⟩
      have hcond : st.state.loopCondition = false := by
        simp only [loopCondition, hbal, Nat.lt_irrefl, decide_false, Bool.false_and]
      simp only [component, deliver]
      rw [if_neg (by rw [hend]; decide), if_neg (by rw [hcond]; decide)]
      exact ⟨.setup, rfl, hframes, { hcore with }, hne, hsub, hbal, hlock, hend, hdown⟩
  | looping =>
      simp only [Mode.turn, Turn.run.injEq] at hk
      exact hk ▸ intact_deliver hframes hcore hfacts
  | cancelling i r =>
      simp only [Mode.turn, Turn.run.injEq] at hk
      exact hk ▸ intact_cancelLoop i r hframes hcore hfacts
  | fresh => exact absurd hk (by simp [Mode.turn])
  | setup => exact absurd hk (by simp [Mode.turn])
  | resting r => exact absurd hk (by simp [Mode.turn])
  | consuming e => exact absurd hk (by simp [Mode.turn])
  | cancelled i r => exact absurd hk (by simp [Mode.turn])

/-- The invariant is kept by every step. -/
theorem intact_step (st st' : Open (component T publisher))
    (hreach : Open.Reach subscriptionCheck (ShutdownRules true) st)
    (h : ∃ mode, Intact mode st) (hstep : Open.Step subscriptionCheck (ShutdownRules true) st st') :
    ∃ mode, Intact mode st' := by
  rcases h with ⟨mode, h⟩
  cases hstep with
  | call c turn gate ok =>
      rcases ok with ⟨hsub, hconsume, hcareful⟩
      rcases hcareful rfl with ⟨hcalm, hready⟩
      cases c with
      | subscribe => exact intact_subscribe h hsub
      | request n =>
          have hend : st.state.hasEnded = false := by
            by_contra hno
            simp [component, subscriptionCheck, hno] at gate
          exact intact_request h turn n hsub hend (hcalm.imp id And.right)
      | cancel =>
          have hend : st.state.hasEnded = false := by
            by_contra hno
            simp [component, subscriptionCheck, hno] at gate
          exact intact_cancel h turn hsub hend (hconsume rfl)
            (hcalm.resolve_right fun hno => hno.1 rfl) (hready rfl)
  | said p i o turn kind ok =>
      rcases ok with ⟨hstream, hlive, hcareful⟩
      cases o with
      | onSubscribe => exact ⟨mode, intact_onSubscribe h turn p i kind hstream⟩
      | onNext e =>
          exact intact_onNext h turn p i kind e hstream hlive (hcareful rfl (by simp))
      | destroy => exact ⟨mode, intact_destroyWrapper h turn p i kind⟩
  | reply who k rest turn top ok =>
      -- some call was made, or there would be nothing to return to
      have hne : st.log ≠ [] := by
        intro hlog
        rw [(hreach.idle st hlog).1] at top
        exact absurd top (by simp)
      exact intact_reply h turn hne who k rest top (ok rfl (who, k) (by rw [top]; rfl))
  | view p v turn ok => exact ⟨mode, intact_view h turn p v ok.2.1 (ok.2.2 rfl)⟩
  | run k turn _ => exact intact_run h k turn

theorem intact_reach (st : Open (component T publisher))
    (h : Open.Reach subscriptionCheck (ShutdownRules true) st) : ∃ mode, Intact mode st :=
  Open.Reach.induct (fun st => ∃ mode, Intact mode st) ⟨.fresh, intact_init⟩
    (fun st st' => intact_step st st') st h

/-- A point after which upstreams are still cancelled. -/
def Point.beforeCancel : Point V → Bool
  | .failed => true
  | .cancelling _ => true
  | .cancelled _ => true
  | _ => false

/-- No code is half executed that has upstreams to cancel. -/
def Settled (st : Open (component T publisher)) : Prop :=
  st.turn = .outside ∧ ∀ f ∈ st.stack, f.2.beforeCancel = false

/-- What a clean shutdown is: no check fails, no upstream is cancelled twice,
    an error that was consumed is the last event that was delivered and the
    only error, nothing is delivered after a `Cancel`, and when the shutdown is
    over every upstream has been cancelled whose last event was not
    consumed. -/
structure Clean (st : Open (component T publisher)) : Prop where
  passes : st.turn.isFailed = false
  once : ∀ p, cancels p st.log ≤ 1
  delivered : ∀ p u, st.state.upstreamSubscribers[p]? = some u → u.next = none →
    ∀ e ∈ sent p st.log, e.isError = true → (received st.log).getLast? = some e
  last : ∀ e ∈ (received st.log).dropLast, e.isError = false
  silence : Silence st.log
  complete : down st.log = true → Settled st → ∀ p < st.kinds.length,
    cancels p st.log = 1 ∨ cancels p st.log = 0 ∧ ended (arrived p st.log) = true

/-- When the shutdown is over the stream has no pointers to upstream
    subscribers any more. -/
theorem Intact.detached (h : Intact mode st) (hdown : down st.log = true) (hrest : Settled st) :
    Detached st.state ∧ mode.now = none := by
  rcases h with ⟨hmode, hframes, -, hfacts⟩
  rcases hrest with ⟨hturn, hstack⟩
  have hno (k : Point (Sigma T)) (fs : List (Point (Sigma T))) (hk : mode.frames = k :: fs)
      (hbefore : k.beforeCancel = true) : False := by
    have hmem : k ∈ trackedFrames st.stack := by
      rw [trackedFrames, hframes, hk]
      exact List.mem_cons_self
    rcases List.mem_map.mp (List.mem_filter.mp hmem).1 with ⟨f, hf, heq⟩
    exact absurd ((hstack f hf).symm.trans (heq ▸ hbefore)) (by decide)
  cases mode with
  | fresh =>
      rw [hfacts.1] at hdown
      exact absurd hdown (by simp [down, cancelCalled, errorSent])
  | setup => exact absurd (hfacts.2.2.2.2.2.symm.trans hdown) (by decide)
  | setupLoop => exact absurd (hfacts.2.2.2.2.2.symm.trans hdown) (by decide)
  | resting r =>
      refine ⟨(hfacts.2.2.1 hdown).resolve_right fun hr => ?_, rfl⟩
      exact hno .failed [] (by rw [hr.1]; rfl) rfl
  | looping => exact absurd (hturn.symm.trans hmode) (by simp [Mode.turn])
  | consuming e => exact absurd (hfacts.2.2.2.2.1.symm.trans hdown) (by decide)
  | cancelling i r => exact absurd (hturn.symm.trans hmode) (by simp [Mode.turn])
  | cancelled i r => exact (hno (.cancelled i) r.frames rfl rfl).elim

end Steps

section Examples

/-- Two upstreams. -/
def twoUpstreams : MergePublisher Unit :=
  ⟨[(), ()], by decide⟩

/-- Both upstreams are subscribed and confirm. -/
def bothConfirmed : List (Move Call Bool Unit (fun _ => Signal Nat)) :=
  [.call .subscribe, .said 0 () .onSubscribe, .reply, .reply, .said 1 () .onSubscribe, .reply,
    .reply, .reply]

/-- The first upstream fails. Its error is delivered, and the other upstream is
    cancelled. -/
def errorFirst : List (Move Call Bool Unit (fun _ => Signal Nat)) :=
  bothConfirmed ++ [.call (.request 2), .run,
    .said 0 () (.onNext (.status { code := .internal } (by decide))), .run, .reply, .run, .run,
    .reply, .run]

/-- The first upstream is done, which nobody has asked to hear of yet, and the
    subscriber cancels. -/
def cancelAfterDone : List (Move Call Bool Unit (fun _ => Signal Nat)) :=
  bothConfirmed ++ [.said 0 () (.onNext .done), .run, .view 0 true, .call .cancel, .run]

end Examples

end MergeStream

end RxCppUniq
