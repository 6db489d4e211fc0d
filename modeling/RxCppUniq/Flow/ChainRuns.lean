import RxCppUniq.Reactive.AsyncChain
import RxCppUniq.Theory.Total

/-!
# Runs of Chains

What becomes of the events of a finite stream on their way over the hops. The
subscriber asks for an event only when it has received the one before, so
there is one thing on its way at any time: the subscription goes down the
pipeline hop by hop, `OnSubscribe` comes up again, then a request goes down
and an event comes up, over and over. `Phase` says what it is and where. All
else that a worker still has to do are leftovers of calls that have been
returned from: the rest of the generator's loop, and the destruction of groups.

The last event leaves every group it has come through without its subscriber.
So what is destroyed behind it, from whichever worker, is never ahead of it,
and the level it has reached bounds what may have been moved out or
destroyed. Before the last event the level is `0`.

## Main definitions

* `AsyncChain.through`: An event as it comes out of the first groups.
* `AsyncChain.inFlight`: The events on their way over all hops.
* `AsyncChain.Emits`: The events of a generator, including the end.
* `AsyncChain.Phase`: What is on its way.
* `AsyncChain.Fields`, `AsyncChain.History`: What the fields of the streams say
  in a phase, and the events sent so far.
* `AsyncChain.Sound`: The invariant.

## Theorems

* `AsyncChain.Sound.step`: The invariant is kept by every worker.
* `AsyncChain.exactly_once`: Every event is delivered once and in order.
* `AsyncChain.exactly_once_shuttle`: A run of three hops.
-/

namespace RxCppUniq

open Theory

namespace AsyncChain

variable {S W : Type}

/-- An event of the generator as it comes out of group `j` and is about to go
    through the next maps. -/
def through (c : AsyncChain S W) : (j : Nat) → StatusOr (c.Elem 0) → StatusOr (c.Elem j)
  | 0, event => event
  | j + 1, event => (c.maps j).apply (through c j event)

@[simp] theorem isEnd_through (c : AsyncChain S W) (j : Nat) (event : StatusOr (c.Elem 0)) :
    (c.through j event).isEnd = event.isEnd := by
  induction j with
  | zero => rfl
  | succ j ih => rw [through, Maps.isEnd_apply, ih]

/-- The hop that has scheduled a task with an event. -/
def Task.hop? {Elem : Nat → Type} : Task Elem → Option Nat
  | .subscribe _ => none
  | .onSubscribe _ => none
  | .request _ _ => none
  | .onNext j _ => some j
  | .last j _ => some j

/-- The group that is handing over an event. -/
def Frame.hop? {Elem : Nat → Type} : Frame Elem → Option Nat
  | .onSubscribe _ => none
  | .calling j _ => some j
  | .onNext j _ => some j
  | .arriving j _ => some j
  | .request _ _ => none
  | .passing _ _ => none
  | .generate _ => none
  | .destroy _ => none

/-- The number of events that are queued at a hop or are being handed over. -/
def inFlightAt (c : AsyncChain S W) (crew : Workers c) (j : Nat) : Nat :=
  (crew.queue (c.worker j)).countP (fun t => t.hop? = some j) +
    (crew.stack (c.worker j)).countP (fun f => f.hop? = some j)

/-- The number of events on their way over all hops. -/
def inFlight (c : AsyncChain S W) (crew : Workers c) : Nat :=
  total (c.inFlightAt crew) (List.range (c.hops + 1))

/-- The events of the generator from its initial state on, with the end. -/
structure Emits (c : AsyncChain S W) (events : List (StatusOr (c.Elem 0))) : Prop where
  made : events = GeneratingStream.events c.generator events.length c.initial
  ends : ∃ e, events.getLast? = some e ∧ e.isEnd = true

/-- What is on its way, and where. Event `e` of `queued` and `calling` has
    come to stream `j + 1`. -/
inductive Phase (Elem : Nat → Type) where
  | subscribing (j : Nat)
  | subscribed (j : Nat)
  | announcing (j : Nat)
  | asking (j : Nat)
  | requesting (j : Nat)
  | passing (j : Nat)
  | generating
  | queued (j : Nat) (e : StatusOr (Elem (j + 1)))
  | calling (j : Nat) (e : StatusOr (Elem (j + 1)))
  | sending (j : Nat) (e : StatusOr (Elem j))
  | arriving (j : Nat) (e : StatusOr (Elem (j + 1)))
  | finished

/-- What is left to do when the subscriber of group `j` has been called. -/
def below {Elem : Nat → Type} : Nat → Bool → List (Frame Elem)
  | 0, isEnd => [.generate (.sent isEnd)]
  | j + 1, isEnd => if isEnd then [.destroy (j + 2)] else []

/-- How many groups an event has left without their subscribers. -/
def passed (j : Nat) (isEnd : Bool) : Nat :=
  if isEnd then j else 0

section Phases

variable (c : AsyncChain S W)

namespace Phase

/-- What is on its way in a phase. -/
def going : Phase c.Elem → Option (W × Going (Task c.Elem) (Frame c.Elem))
  | subscribing j => some (c.worker j, .task (.subscribe (j + 1)))
  | subscribed j => some (c.worker (j + 1), .task (.onSubscribe (j + 1)))
  | announcing j =>
      some (c.worker j, .frame (.onSubscribe j) (if j = 0 then [.generate .done] else []))
  | asking j => some (c.worker j, .task (.request (j + 1) 1))
  | requesting j => some (c.worker j, .frame (.request j 1) [])
  | passing j => some (c.worker j, .frame (.passing j 1) [])
  | generating => some (c.worker 0, .frame (.generate .generate) [])
  | queued j e =>
      some (c.worker (j + 1), .task (if e.isEnd then .last (j + 1) e else .onNext (j + 1) e))
  | calling j e => some (c.worker (j + 1), .frame (.calling (j + 1) e) [])
  | sending j e => some (c.worker j, .frame (.onNext j e) (below j e.isEnd))
  | arriving j e => some (c.worker j, .frame (.arriving j e) (below j e.isEnd))
  | finished => none

/-- The hops are numbered up to `hops`, and the last event does not go through
    the pointer of a stream. -/
def Fits : Phase c.Elem → Prop
  | subscribing j => j < c.hops
  | subscribed j => j < c.hops
  | announcing j => j ≤ c.hops
  | asking j => j < c.hops
  | requesting j => j ≤ c.hops
  | passing j => j ≤ c.hops
  | generating => True
  | queued j _ => j < c.hops
  | calling j e => j < c.hops ∧ e.isEnd = false
  | sending j _ => j ≤ c.hops
  | arriving j _ => j ≤ c.hops
  | finished => True

/-- The groups that `OnSubscribe` has come to. -/
def reached : Phase c.Elem → Nat
  | subscribing _ => 0
  | subscribed j => j + 1
  | announcing j => j
  | asking _ => c.hops + 1
  | requesting _ => c.hops + 1
  | passing _ => c.hops + 1
  | generating => c.hops + 1
  | queued _ _ => c.hops + 1
  | calling _ _ => c.hops + 1
  | sending _ _ => c.hops + 1
  | arriving _ _ => c.hops + 1
  | finished => c.hops + 1

/-- The level of the last event. -/
def level : Phase c.Elem → Nat
  | subscribing _ => 0
  | subscribed _ => 0
  | announcing _ => 0
  | asking _ => 0
  | requesting _ => 0
  | passing _ => 0
  | generating => 0
  | queued j e => passed (j + 1) e.isEnd
  | calling _ _ => 0
  | sending j e => passed j e.isEnd
  | arriving j e => passed j e.isEnd
  | finished => c.hops + 1

/-- The hop or group at which the event on its way is. -/
def hop? : Phase c.Elem → Option Nat
  | queued j _ => some (j + 1)
  | calling j _ => some (j + 1)
  | sending j _ => some j
  | arriving j _ => some j
  | _ => none

/-- The demand the generator has not yet met. -/
def balance : Phase c.Elem → Nat
  | generating => 1
  | _ => 0

end Phase

/-- The pieces that may be left over, at a level of the last event. -/
def Left (level : Nat) (v : W) : Frame c.Elem → Prop
  | .onSubscribe _ => False
  | .calling _ _ => False
  | .onNext _ _ => False
  | .arriving _ _ => False
  | .request _ _ => False
  | .passing _ _ => False
  | .generate k => v = c.worker 0 ∧ (k = .sent true → 1 ≤ level)
  | .destroy j => 1 ≤ j ∧ j ≤ level

/-- What the fields say. Groups up to `reached` have been subscribed, and only
    those up to `level` have ended or are without their subscriber. -/
structure Fields (s : State c) (reached level balance : Nat) : Prop where
  subscribed : ∀ j, 1 ≤ j → ((s.stream j).upstreamSubscription = true ↔ j ≤ reached)
  moved : ∀ j, 1 ≤ j → j ≤ c.hops → ((s.stream j).subscriberMoved = true ↔ j ≤ level)
  ended : ∀ j, 1 ≤ j → (s.stream j).hasEnded = true → j ≤ level
  generatorEnded : s.generator.hasEnded = true → 1 ≤ level
  balance : s.generator.requested.balance = balance

/-- The subscriber has received the first `n` events, none of them an end. -/
structure Sent (s : State c) (n : Nat) : Prop where
  received : s.received =
    (GeneratingStream.events c.generator n c.initial).map (c.through (c.hops + 1))
  values : ∀ e ∈ GeneratingStream.events c.generator n c.initial, e.isEnd = false

/-- All events that were made have been received, and none is an end. -/
def Between (s : State c) : Prop :=
  ∃ n, Sent c s n ∧ s.generator.state = GeneratingStream.after c.generator n c.initial

/-- One event was made that has not been received yet. It has come out of the
    first `j` groups. -/
def Underway (s : State c) (j : Nat) (e : StatusOr (c.Elem j)) : Prop :=
  ∃ n, Sent c s n ∧
    s.generator.state = GeneratingStream.after c.generator (n + 1) c.initial ∧
    e = c.through j (c.generator (GeneratingStream.after c.generator n c.initial)).1

/-- The end has been received. -/
def Complete (s : State c) : Prop :=
  ∃ n, s.received =
      (GeneratingStream.events c.generator n c.initial).map (c.through (c.hops + 1)) ∧
    ∃ e, (GeneratingStream.events c.generator n c.initial).getLast? = some e ∧ e.isEnd = true

/-- The events sent so far, in a phase. -/
def History (s : State c) : Phase c.Elem → Prop
  | .queued j e => Underway c s (j + 1) e
  | .calling j e => Underway c s (j + 1) e
  | .sending j e => Underway c s j e
  | .arriving j e => Underway c s (j + 1) e
  | .finished => Complete c s
  | _ => Between c s

/-- While `generating_` is set the rest of the generator's loop is left to do,
    unless the generator was deleted. -/
def Looping (crew : Workers c) : Prop :=
  crew.state.generator.generating = true → crew.state.generator.hasEnded = true ∨
    ∃ k, k ≠ GeneratingStream.Point.done ∧ .generate k ∈ crew.stack (c.worker 0)

/-- The invariant. -/
structure Sound (crew : Workers c) (p : Phase c.Elem) : Prop where
  running : crew.failed = none
  sole : Sole (Left c (p.level c)) crew (p.going c)
  fits : p.Fits c
  fields : Fields c crew.state (p.reached c) (p.level c) (p.balance c)
  history : History c crew.state p
  looping : Looping c crew

end Phases

section Leftovers

variable {c : AsyncChain S W}

/-- What may be left over at a level may be left over at any higher one. -/
theorem Left.mono {l l' : Nat} (hle : l ≤ l') (v : W) (f : Frame c.Elem) (h : Left c l v f) :
    Left c l' v f := by
  cases f with
  | generate k => exact ⟨h.1, fun hk => Nat.le_trans (h.2 hk) hle⟩
  | destroy j => exact ⟨h.1, Nat.le_trans h.2 hle⟩
  | _ => exact h

theorem Sent.congr {s s' : State c} (hreceived : s'.received = s.received) {n : Nat}
    (h : Sent c s n) : Sent c s' n :=
  ⟨hreceived.trans h.received, h.values⟩

theorem Between.congr {s s' : State c} (hreceived : s'.received = s.received)
    (hstate : s'.generator.state = s.generator.state) (h : Between c s) : Between c s' := by
  rcases h with ⟨n, hsent, hafter⟩
  exact ⟨n, hsent.congr hreceived, hstate.trans hafter⟩

theorem Underway.congr {s s' : State c} (hreceived : s'.received = s.received)
    (hstate : s'.generator.state = s.generator.state) {j : Nat} {e : StatusOr (c.Elem j)}
    (h : Underway c s j e) : Underway c s' j e := by
  rcases h with ⟨n, hsent, hafter, he⟩
  exact ⟨n, hsent.congr hreceived, hstate.trans hafter, he⟩

/-- The history is a matter of what was received and of how far the generator
    has got. -/
theorem History.congr {s s' : State c} (hreceived : s'.received = s.received)
    (hstate : s'.generator.state = s.generator.state) (p : Phase c.Elem) (h : History c s p) :
    History c s' p := by
  cases p with
  | queued j e => exact Underway.congr hreceived hstate h
  | calling j e => exact Underway.congr hreceived hstate h
  | sending j e => exact Underway.congr hreceived hstate h
  | arriving j e => exact Underway.congr hreceived hstate h
  | finished =>
      rcases h with ⟨n, hn, hend⟩
      exact ⟨n, hreceived.trans hn, hend⟩
  | _ => exact Between.congr hreceived hstate h

/-- Destroying a group changes no more than that groups have ended. The group
    itself is one of them, and the next one only where it is still owned. -/
theorem destroy_spec (n j i : Nat) (stream : Nat → AsyncStream) :
    (destroy n j stream i).upstreamSubscription = (stream i).upstreamSubscription ∧
    (destroy n j stream i).subscriberMoved = (stream i).subscriberMoved ∧
    ((destroy n j stream i).hasEnded = true → (stream i).hasEnded = true ∨
      j ≤ i ∧ i < j + n ∧ (j < i → (stream j).subscriberMoved = false)) := by
  induction n generalizing j stream with
  | zero => exact ⟨rfl, rfl, Or.inl⟩
  | succ n ih =>
      rw [destroy]
      -- a group whose subscriber was moved away ends alone, any other takes the next
      -- one with it
      by_cases hmoved : (stream j).subscriberMoved = true
      · rw [if_pos hmoved]
        by_cases hi : i = j
        · rw [hi, Function.update_self]
          exact ⟨rfl, rfl, fun _ => Or.inr ⟨Nat.le_refl j, by omega, fun hlt => by omega⟩⟩
        · rw [Function.update_of_ne hi]
          exact ⟨rfl, rfl, Or.inl⟩
      · rw [if_neg hmoved]
        rw [Bool.not_eq_true] at hmoved
        have hrest := ih (j + 1) (Function.update stream j { stream j with hasEnded := true })
        by_cases hi : i = j
        · rw [hi, Function.update_self] at hrest
          rw [hi]
          exact ⟨hrest.1, hrest.2.1,
            fun _ => Or.inr ⟨Nat.le_refl j, by omega, fun hlt => by omega⟩⟩
        · rw [Function.update_of_ne hi] at hrest
          refine ⟨hrest.1, hrest.2.1, fun hended => ?_⟩
          rcases hrest.2.2 hended with hold | ⟨hle, hbound, -⟩
          · exact Or.inl hold
          · exact Or.inr ⟨by omega, by omega, fun _ => hmoved⟩

/-- A group that the last event has come out of is destroyed. The next one is
    not destroyed with it, it has lost its owner. -/
theorem Fields.destroy {s : State c} {r l b : Nat} (h : Fields c s r l b) (j : Nat) (hj : 1 ≤ j)
    (hle : j ≤ l) :
    Fields c { s with stream := AsyncChain.destroy (c.hops + 2 - j) j s.stream } r l b where
  subscribed i hi := by
    rw [(destroy_spec _ j i s.stream).1]
    exact h.subscribed i hi
  moved i hi hhops := by
    rw [(destroy_spec _ j i s.stream).2.1]
    exact h.moved i hi hhops
  ended i hi hended := by
    rcases (destroy_spec _ j i s.stream).2.2 hended with hold | ⟨hji, hbound, hmoved⟩
    · exact h.ended i hi hold
    · by_cases heq : i = j
      · exact heq ▸ hle
      · -- Behind the last hop there is no other group to be destroyed.
        have hhops : j ≤ c.hops := by omega
        have hthere := (hmoved (by omega)).symm.trans ((h.moved j hj hhops).mpr hle)
        exact absurd hthere Bool.false_ne_true
  generatorEnded := h.generatorEnded
  balance := h.balance

/-- The generator's state is the same apart from its flags. -/
theorem Fields.generator {s : State c} {r l b : Nat} (h : Fields c s r l b)
    (g : GeneratingStream S) (hrequested : g.requested = s.generator.requested)
    (hended : g.hasEnded = true → 1 ≤ l) : Fields c { s with generator := g } r l b where
  subscribed := h.subscribed
  moved := h.moved
  ended := h.ended
  generatorEnded := hended
  balance := by rw [hrequested, h.balance]

/-- A worker goes on from one piece to others without running the generator's
    loop. -/
theorem Looping.perform [DecidableEq W] {crew : Workers c} (h : Looping c crew) (v : W)
    (rest calls : List (Frame c.Elem)) (s : State c) (task : Option (W × Task c.Elem))
    (hgenerator : s.generator = crew.state.generator)
    (hstack : ∀ k, k ≠ GeneratingStream.Point.done → .generate k ∈ crew.stack v →
      .generate k ∈ calls ++ rest) :
    Looping c (crew.perform v rest (.go s calls task)) := by
  intro hgenerating
  rw [Crew.state_perform] at hgenerating ⊢
  rw [hgenerator] at hgenerating ⊢
  rcases h hgenerating with hended | ⟨k, hk, hmem⟩
  · exact Or.inl hended
  · refine Or.inr ⟨k, hk, ?_⟩
    rw [Crew.stack_perform]
    by_cases hv : c.worker 0 = v
    · rw [hv, Function.update_self]
      exact hstack k hk (hv ▸ hmem)
    · rw [Function.update_of_ne hv]
      exact hmem

namespace Sound

variable [DecidableEq W] {crew : Workers c} {p : Phase c.Elem} (h : Sound c crew p)

include h

/-- A leftover is carried out that leaves the phase as it is. -/
theorem leave_go (v : W) (rest calls : List (Frame c.Elem)) (s : State c)
    (hnone : ∀ g r, p.going c ≠ some (v, .frame g r))
    (hleft : ∀ g ∈ calls ++ rest, Left c (p.level c) v g)
    (hfields : Fields c s (p.reached c) (p.level c) (p.balance c))
    (hreceived : s.received = crew.state.received)
    (hstate : s.generator.state = crew.state.generator.state)
    (hlooping : Looping c (crew.perform v rest (.go s calls none))) :
    Sound c (crew.perform v rest (.go s calls none)) p where
  running := by rw [Crew.failed_perform, h.running]
  sole := h.sole.leave v rest calls s hnone hleft
  fits := h.fits
  fields := by
    rw [Crew.state_perform]
    exact hfields
  history := by
    rw [Crew.state_perform]
    exact h.history.congr hreceived hstate
  looping := hlooping

/-- The leftover is a piece of the generator's loop. -/
theorem leave_generate (k : GeneratingStream.Point) (rest : List (Frame c.Elem))
    (hstack : crew.stack (c.worker 0) = .generate k :: rest)
    (hnone : ∀ g r, p.going c ≠ some (c.worker 0, .frame g r))
    (hsent : k = .sent true → 1 ≤ p.level c)
    (hrest : ∀ g ∈ rest, Left c (p.level c) (c.worker 0) g) :
    Sound c (crew.perform (c.worker 0) rest (exec c crew.state (.generate k))) p := by
  have hleft : ∀ k', (k' = GeneratingStream.Point.sent true → 1 ≤ p.level c) →
      ∀ g ∈ [Frame.generate k'] ++ rest, Left c (p.level c) (c.worker 0) g := by
    intro k' hk' g hg
    rcases List.mem_cons.mp hg with rfl | hg
    · exact ⟨rfl, hk'⟩
    · exact hrest g hg
  have hbalance : crew.state.generator.requested.hasRequests = false := by
    have hzero := h.fields.balance
    cases p with
    | generating => exact absurd rfl (hnone _ _)
    | _ =>
        change _ = 0 at hzero
        simp only [RequestBalance.hasRequests, hzero, Nat.lt_irrefl, decide_false]
  cases k with
  | done =>
      refine h.leave_go (c.worker 0) rest [] _ hnone hrest
        (h.fields.generator _ rfl h.fields.generatorEnded) rfl rfl ?_
      refine h.looping.perform _ rest [] _ none rfl (fun k hk hmem => ?_)
      rw [hstack] at hmem
      rcases List.mem_cons.mp hmem with heq | hmem
      · exact absurd (Frame.generate.inj heq) hk
      · exact hmem
  | generate =>
      -- The demand is used up, so the loop ends.
      have hexec : exec c crew.state (.generate .generate) = .go { crew.state with
          generator := { crew.state.generator with generating := false } } [] none := by
        change perform c crew.state (GeneratingStream.generate _ _) = _
        rw [GeneratingStream.generate, hbalance]
        rfl
      rw [hexec]
      refine h.leave_go (c.worker 0) rest [] _ hnone hrest
        (h.fields.generator _ rfl h.fields.generatorEnded) rfl rfl ?_
      intro hgenerating
      exact absurd hgenerating Bool.false_ne_true
  | sent isEnd =>
      by_cases hended : crew.state.generator.hasEnded = true
      · have hexec : exec c crew.state (.generate (.sent isEnd)) =
            .go { crew.state with generator := crew.state.generator } [] none := by
          change perform c crew.state (GeneratingStream.sent _ _) = _
          rw [GeneratingStream.sent, if_pos hended]
          rfl
        rw [hexec]
        refine h.leave_go (c.worker 0) rest [] _ hnone hrest
          (h.fields.generator _ rfl h.fields.generatorEnded) rfl rfl ?_
        intro _
        exact Or.inl (by rw [Crew.state_perform]; exact hended)
      · cases isEnd with
        | true =>
            have hexec : exec c crew.state (.generate (.sent true)) = .go { crew.state with
                generator := { crew.state.generator with hasEnded := true } }
                [.destroy 1, .generate .done] none := by
              change perform c crew.state (GeneratingStream.sent _ _) = _
              rw [GeneratingStream.sent, if_neg hended]
              rfl
            rw [hexec]
            refine h.leave_go (c.worker 0) rest _ _ hnone ?_
              (h.fields.generator _ rfl fun _ => hsent rfl) rfl rfl ?_
            · intro g hg
              rcases List.mem_cons.mp hg with rfl | hg
              · exact ⟨Nat.le_refl 1, hsent rfl⟩
              · exact hleft .done (by simp only [reduceCtorEq, false_implies]) g hg
            · intro _
              exact Or.inl (by rw [Crew.state_perform])
        | false =>
            have hexec : exec c crew.state (.generate (.sent false)) =
                .go { crew.state with generator := crew.state.generator }
                  [.generate .generate] none := by
              change perform c crew.state (GeneratingStream.sent _ _) = _
              rw [GeneratingStream.sent, if_neg hended]
              rfl
            rw [hexec]
            refine h.leave_go (c.worker 0) rest _ _ hnone
              (hleft .generate (by simp only [reduceCtorEq, false_implies]))
              (h.fields.generator _ rfl h.fields.generatorEnded) rfl rfl ?_
            intro _
            refine Or.inr ⟨.generate, by simp only [ne_eq, reduceCtorEq, not_false_eq_true], ?_⟩
            rw [Crew.stack_perform, Function.update_self]
            exact List.mem_cons_self

/-- A worker has a leftover on top of its stack. -/
theorem leave (v : W) (f : Frame c.Elem) (rest : List (Frame c.Elem))
    (hstack : crew.stack v = f :: rest) (hleft : ∀ g ∈ f :: rest, Left c (p.level c) v g)
    (hnone : ∀ g r, p.going c ≠ some (v, .frame g r)) :
    Sound c (crew.perform v rest (exec c crew.state f)) p := by
  have hf := hleft f List.mem_cons_self
  have hrest : ∀ g ∈ rest, Left c (p.level c) v g :=
    fun g hg => hleft g (List.mem_cons_of_mem f hg)
  cases f with
  | generate k =>
      rcases hf with ⟨rfl, hsent⟩
      exact h.leave_generate k rest hstack hnone hsent hrest
  | destroy j =>
      refine h.leave_go v rest [] _ hnone hrest (h.fields.destroy j hf.1 hf.2) rfl rfl ?_
      refine h.looping.perform v rest [] _ none rfl (fun k _ hmem => ?_)
      rw [hstack] at hmem
      rcases List.mem_cons.mp hmem with heq | hmem
      · exact absurd heq (by simp only [reduceCtorEq, not_false_eq_true])
      · exact hmem
  | _ => exact hf.elim

end Sound

end Leftovers

section Steps

variable {c : AsyncChain S W}

/-- Groups the last event has not come out of are there. -/
theorem Fields.there {s : State c} {r l b : Nat} (h : Fields c s r l b) (j : Nat) (hlt : l < j) :
    (s.stream j).hasEnded = false := by
  cases hended : (s.stream j).hasEnded with
  | false => rfl
  | true => exact absurd (h.ended j (by omega) hended) (by omega)

/-- Before the last event nothing has ended. -/
theorem Fields.hasEnded_eq {s : State c} {r b : Nat} (h : Fields c s r 0 b) (j : Nat) :
    s.hasEnded j = false := by
  cases j with
  | zero =>
      cases hended : s.generator.hasEnded with
      | false => exact hended
      | true => exact absurd (h.generatorEnded hended) (by omega)
  | succ j => exact h.there (j + 1) (Nat.succ_pos j)

/-- Before the last event a request finds all that it goes through. -/
theorem Fields.requestCheck_eq {s : State c} {b : Nat} (h : Fields c s (c.hops + 1) 0 b)
    (j tokens : Nat) (hj : j ≤ c.hops) : s.requestCheck j tokens = none := by
  unfold State.requestCheck
  rw [h.hasEnded_eq j, h.there (j + 1) (Nat.succ_pos j), subscriptionCheck_false]
  by_cases hmaps : (c.maps j).isEmpty = true
  · rw [if_pos hmaps]
  · have hsub := (h.subscribed (j + 1) (Nat.succ_pos j)).mpr (by omega)
    rw [if_neg hmaps, if_pos hsub]

/-- `OnSubscribe` has come one group further. -/
theorem Fields.onSubscribe {s : State c} {j : Nat} (h : Fields c s j 0 0) :
    Fields c (s.setStream (j + 1) { s.stream (j + 1) with upstreamSubscription := true })
      (j + 1) 0 0 where
  subscribed i hi := by
    by_cases heq : i = j + 1
    · rw [heq, State.stream_setStream_self]
      exact ⟨fun _ => Nat.le_refl _, fun _ => rfl⟩
    · rw [State.stream_setStream_of_ne _ _ _ _ heq, h.subscribed i hi]
      omega
  moved i hi hhops := by
    by_cases heq : i = j + 1
    · rw [heq, State.stream_setStream_self]
      exact heq ▸ h.moved i hi hhops
    · rw [State.stream_setStream_of_ne _ _ _ _ heq]
      exact h.moved i hi hhops
  ended i hi hended := by
    by_cases heq : i = j + 1
    · rw [heq, State.stream_setStream_self] at hended
      exact heq ▸ h.ended (j + 1) (Nat.succ_pos j) hended
    · rw [State.stream_setStream_of_ne _ _ _ _ heq] at hended
      exact h.ended i hi hended
  generatorEnded := h.generatorEnded
  balance := h.balance

/-- The last event has come out of one group more, and has taken the subscriber
    of its stream along. -/
theorem Fields.last {s : State c} {j : Nat} (h : Fields c s (c.hops + 1) j 0) :
    Fields c (s.setStream (j + 1) { s.stream (j + 1) with subscriberMoved := true })
      (c.hops + 1) (j + 1) 0 where
  subscribed i hi := by
    by_cases heq : i = j + 1
    · rw [heq, State.stream_setStream_self]
      exact h.subscribed (j + 1) (Nat.succ_pos j)
    · rw [State.stream_setStream_of_ne _ _ _ _ heq]
      exact h.subscribed i hi
  moved i hi hhops := by
    by_cases heq : i = j + 1
    · rw [heq, State.stream_setStream_self]
      exact ⟨fun _ => Nat.le_refl _, fun _ => rfl⟩
    · rw [State.stream_setStream_of_ne _ _ _ _ heq, h.moved i hi hhops]
      omega
  ended i hi hended := by
    by_cases heq : i = j + 1
    · exact Nat.le_of_eq heq
    · rw [State.stream_setStream_of_ne _ _ _ _ heq] at hended
      exact Nat.le_succ_of_le (h.ended i hi hended)
  generatorEnded hended := Nat.le_succ_of_le (h.generatorEnded hended)
  balance := h.balance

/-- The last event has come to the subscriber. -/
theorem Fields.complete {s : State c} (h : Fields c s (c.hops + 1) c.hops 0) (s' : State c)
    (hgenerator : s'.generator = s.generator) (hstream : s'.stream = s.stream) :
    Fields c s' (c.hops + 1) (c.hops + 1) 0 where
  subscribed j hj := by
    rw [hstream]
    exact h.subscribed j hj
  moved j hj hhops := by
    rw [hstream, h.moved j hj hhops]
    omega
  ended j hj hended := by
    rw [hstream] at hended
    exact Nat.le_succ_of_le (h.ended j hj hended)
  generatorEnded hended := by
    rw [hgenerator] at hended
    exact Nat.le_succ_of_le (h.generatorEnded hended)
  balance := by rw [hgenerator, h.balance]

/-- The fields do not say what was received. -/
theorem Fields.congr {s : State c} {r l b : Nat} (h : Fields c s r l b) (s' : State c)
    (hgenerator : s'.generator = s.generator) (hstream : s'.stream = s.stream) :
    Fields c s' r l b where
  subscribed := hstream ▸ h.subscribed
  moved := hstream ▸ h.moved
  ended := hstream ▸ h.ended
  generatorEnded := hgenerator ▸ h.generatorEnded
  balance := hgenerator ▸ h.balance

/-- The event is the next one after those received. -/
theorem Underway.received {s : State c} {e : StatusOr (c.Elem (c.hops + 1))}
    (h : Underway c s (c.hops + 1) e) : ∃ n, s.generator.state =
        GeneratingStream.after c.generator n c.initial ∧
      s.received ++ [e] =
        (GeneratingStream.events c.generator n c.initial).map (c.through (c.hops + 1)) ∧
      (GeneratingStream.events c.generator n c.initial).getLast?.map StatusOr.isEnd =
        some e.isEnd ∧
      (e.isEnd = false → ∀ e ∈ GeneratingStream.events c.generator n c.initial,
        e.isEnd = false) := by
  rcases h with ⟨n, hsent, hstate, he⟩
  have hnext := GeneratingStream.events_succ c.generator n c.initial hsent.values
  refine ⟨n + 1, hstate, ?_, ?_, ?_⟩
  · rw [hnext, List.map_append, ← hsent.received, List.map_singleton, ← he]
  · rw [hnext, List.getLast?_concat, Option.map_some, he, isEnd_through]
  · intro hvalue e' he'
    rw [hnext] at he'
    rcases List.mem_append.mp he' with hold | hnew
    · exact hsent.values e' hold
    · rw [List.mem_singleton.mp hnew, ← isEnd_through c (c.hops + 1), ← he, hvalue]

namespace Sound

variable [DecidableEq W] {crew : Workers c}

/-- The worker on which a task is on its way has finished all others, so none
    of the generator's loop is there. -/
theorem looping_take {p : Phase c.Elem} (h : Sound c crew p) (v : W) (hstack : crew.stack v = [])
    (calls : List (Frame c.Elem)) (s : State c) (task : Option (W × Task c.Elem))
    (hgenerator : s.generator = crew.state.generator) :
    Looping c ((crew.dequeue v).perform v [] (.go s calls task)) := by
  have hlooping : Looping c (crew.dequeue v) := h.looping
  refine hlooping.perform v [] calls s task hgenerator ?_
  intro k _ hmem
  rw [Crew.stack_dequeue, hstack] at hmem
  exact absurd hmem List.not_mem_nil

/-- A piece that is no part of the generator's loop is carried out, and what is
    below it stays. -/
theorem looping_call {p : Phase c.Elem} (h : Sound c crew p) (v : W) (f : Frame c.Elem)
    (rest : List (Frame c.Elem)) (hgoing : p.going c = some (v, .frame f rest))
    (hf : ∀ k, f ≠ .generate k) (calls : List (Frame c.Elem)) (s : State c)
    (task : Option (W × Task c.Elem)) (hgenerator : s.generator = crew.state.generator) :
    Looping c (crew.perform v rest (.go s calls task)) := by
  refine h.looping.perform v rest calls s task hgenerator ?_
  intro k _ hmem
  rw [h.sole.frame v f rest hgoing] at hmem
  rcases List.mem_cons.mp hmem with heq | hmem
  · exact absurd heq.symm (hf k)
  · exact List.mem_append_right calls hmem

/-- The stream of a hop is made, and the hop in front of it subscribed to. -/
theorem subscribing {j : Nat} (h : Sound c crew (.subscribing j))
    (hstack : crew.stack (c.worker j) = []) :
    ∃ p', Sound c ((crew.dequeue (c.worker j)).perform (c.worker j) []
      (run c crew.state (.subscribe (j + 1)))) p' := by
  cases j with
  -- the hop in front of the first one is the generator
  | zero =>
      have hrun : run c crew.state (.subscribe 1) =
          .go { crew.state with generator := crew.state.generator }
            [.onSubscribe 0, .generate .done] none := rfl
      rw [hrun]
      exact ⟨.announcing 0,
        { running := h.running
          sole := h.sole.take _ _ _ fun _ _ hg => hg
          fits := Nat.zero_le _
          fields := h.fields
          history := h.history
          looping := h.looping_take _ hstack _ _ _ rfl }⟩
  | succ j =>
      have hrun : run c crew.state (.subscribe (j + 2)) =
          .go crew.state [] (some (c.worker j, .subscribe (j + 1))) := by
        rw [run, if_neg (by omega)]
        rfl
      rw [hrun]
      exact ⟨.subscribing j,
        { running := h.running
          sole := h.sole.forward _ _ _ fun _ _ hg => hg
          fits := Nat.lt_of_succ_lt h.fits
          fields := h.fields
          history := h.history
          looping := h.looping_take _ hstack _ _ _ rfl }⟩

theorem subscribed {j : Nat} (h : Sound c crew (.subscribed j))
    (hstack : crew.stack (c.worker (j + 1)) = []) :
    ∃ p', Sound c ((crew.dequeue (c.worker (j + 1))).perform (c.worker (j + 1)) []
      (run c crew.state (.onSubscribe (j + 1)))) p' := by
  have hthere := h.fields.there (j + 1) (Nat.succ_pos j)
  rw [run, if_neg (by rw [hthere]; exact Bool.false_ne_true)]
  exact ⟨.announcing (j + 1),
    { running := h.running
      sole := h.sole.take _ _ _ fun _ _ hg => hg
      fits := h.fits
      fields := h.fields
      history := h.history
      looping := h.looping_take _ hstack _ _ _ rfl }⟩

/-- `OnSubscribe` goes on to the next group, or has come to the subscriber,
    which requests the first event. -/
theorem announcing {j : Nat} (h : Sound c crew (.announcing j)) :
    ∃ p', Sound c (crew.perform (c.worker j) (if j = 0 then [.generate .done] else [])
      (exec c crew.state (.onSubscribe j))) p' := by
  have hthere := h.fields.there (j + 1) (Nat.succ_pos j)
  have hfits : j ≤ c.hops := h.fits
  have hloop := h.looping_call _ _ _ rfl (fun k => by
    simp only [ne_eq, reduceCtorEq, not_false_eq_true])
  have hexec : exec c crew.state (.onSubscribe j) = onSubscribe c crew.state (j + 1) := by
    rw [exec, if_neg (by rw [hthere]; exact Bool.false_ne_true)]
  have hfields := Fields.onSubscribe (j := j) h.fields
  rw [hexec, onSubscribe]
  -- the last hop has the subscriber, which requests at once
  by_cases hlast : j = c.hops
  · have hpos := c.one_le_hops
    rw [if_pos (congrArg (· + 1) hlast)]
    have hgoing : (Phase.requesting j : Phase c.Elem).going c =
        some (c.worker j,
          .frame (.request j 1) ([] ++ if j = 0 then [.generate .done] else [])) := by
      rw [if_neg (by omega)]
      rfl
    exact ⟨.requesting j,
      { running := h.running
        sole := hgoing ▸ h.sole.call _ _ [] fun _ _ hg => hg
        fits := h.fits
        fields := by
          rw [hlast] at hfields ⊢
          exact hfields
        history := Between.congr (s := crew.state) rfl rfl h.history
        looping := hloop _ _ _ rfl }⟩
  · have hfresh : (crew.state.stream (j + 1)).upstreamSubscription ≠ true := by
      rw [ne_eq, h.fields.subscribed (j + 1) (Nat.succ_pos j)]
      exact Nat.not_succ_le_self j
    rw [if_neg (fun heq => hlast (Nat.succ.inj heq)), if_neg hfresh]
    refine ⟨.subscribed j,
      { running := h.running
        sole := h.sole.send _ _ _ _ (fun _ _ hg => hg) ?_
        fits := Nat.lt_of_le_of_ne hfits hlast
        fields := hfields
        history := Between.congr (s := crew.state) rfl rfl h.history
        looping := hloop _ _ _ rfl }⟩
    intro g hg
    -- only the first worker has the loop of the generator to go back to
    by_cases hj : j = 0
    · rw [if_pos hj, List.nil_append, List.mem_singleton] at hg
      rw [hg, hj]
      exact ⟨rfl, by simp only [reduceCtorEq, false_implies]⟩
    · rw [if_neg hj] at hg
      exact absurd hg List.not_mem_nil

/-- The checks on the way of a request. -/
theorem requesting {j : Nat} (h : Sound c crew (.requesting j)) :
    ∃ p', Sound c (crew.perform (c.worker j) [] (exec c crew.state (.request j 1))) p' := by
  have hloop := h.looping_call _ _ _ rfl (fun k => by
    simp only [ne_eq, reduceCtorEq, not_false_eq_true])
  rw [exec, h.fields.requestCheck_eq j 1 h.fits]
  simp only [Maps.requestMapping_eq]
  exact ⟨.passing j,
    { running := h.running
      sole := h.sole.call _ _ [] fun _ _ hg => hg
      fits := h.fits
      fields := h.fields
      history := h.history
      looping := hloop _ _ _ rfl }⟩

/-- A request has come to the generator, which goes into its loop. -/
theorem passing_zero (h : Sound c crew (.passing 0)) :
    ∃ p', Sound c (crew.perform (c.worker 0) [] (exec c crew.state (.passing 0 1))) p' := by
  have hended := h.fields.hasEnded_eq 0
  -- The generator is not in its loop, or it would be on the stack.
  have hidle : crew.state.generator.generating = false := by
    cases hgenerating : crew.state.generator.generating with
    | false => rfl
    | true =>
        rcases h.looping hgenerating with hgone | ⟨k, _, hmem⟩
        · exact absurd (hended.symm.trans hgone) Bool.false_ne_true
        · rw [h.sole.frame _ _ _ rfl] at hmem
          rcases List.mem_cons.mp hmem with heq | hmem
          · exact absurd heq (by simp only [reduceCtorEq, not_false_eq_true])
          · exact absurd hmem List.not_mem_nil
  have hexec : exec c crew.state (.passing 0 1) = .go { crew.state with
      generator := { crew.state.generator with
        requested := crew.state.generator.requested.add 1, generating := true } }
      [.generate .generate] none := by
    rw [exec, if_neg (by rw [hended]; exact Bool.false_ne_true)]
    change perform c crew.state (GeneratingStream.request _ 1) = _
    rw [GeneratingStream.request]
    simp only [hidle, Bool.false_eq_true, if_false]
    rfl
  have hbalance : crew.state.generator.requested.balance = 0 := h.fields.balance
  rw [hexec]
  refine ⟨.generating,
    { running := h.running
      sole := h.sole.call _ _ [] fun _ _ hg => hg
      fits := trivial
      fields :=
        { subscribed := h.fields.subscribed
          moved := h.fields.moved
          ended := h.fields.ended
          generatorEnded := h.fields.generatorEnded
          balance := ?_ }
      history := Between.congr (s := crew.state) rfl rfl h.history
      looping := fun _ => Or.inr ⟨.generate, by
        simp only [ne_eq, reduceCtorEq, not_false_eq_true], ?_⟩ }⟩
  · rw [Crew.state_perform, RequestBalance.balance_add, hbalance]
    rfl
  · rw [Crew.stack_perform, Function.update_self]
    exact List.mem_cons_self

theorem passing_succ {j : Nat} (h : Sound c crew (.passing (j + 1))) :
    ∃ p', Sound c (crew.perform (c.worker (j + 1)) []
      (exec c crew.state (.passing (j + 1) 1))) p' := by
  have hfits : j + 1 ≤ c.hops := h.fits
  have hended := h.fields.hasEnded_eq (j + 1)
  have hsub := (h.fields.subscribed (j + 1) (Nat.succ_pos j)).mpr (Nat.le_succ_of_le hfits)
  have hloop := h.looping_call _ _ _ rfl (fun k => by
    simp only [ne_eq, reduceCtorEq, not_false_eq_true])
  rw [exec, if_neg (by rw [hended]; exact Bool.false_ne_true), request, if_pos hsub]
  exact ⟨.asking j,
    { running := h.running
      sole := h.sole.send _ _ _ _ (fun _ _ hg => hg) fun g hg => absurd hg List.not_mem_nil
      fits := hfits
      fields := h.fields
      history := h.history
      looping := hloop _ _ _ rfl }⟩

/-- A task with a request finds its upstream. -/
theorem asking {j : Nat} (h : Sound c crew (.asking j)) (hstack : crew.stack (c.worker j) = []) :
    ∃ p', Sound c ((crew.dequeue (c.worker j)).perform (c.worker j) []
      (run c crew.state (.request (j + 1) 1))) p' := by
  have hupstream := h.fields.hasEnded_eq j
  have hthere := h.fields.there (j + 1) (Nat.succ_pos j)
  have hrun : run c crew.state (.request (j + 1) 1) = .go crew.state [.request j 1] none := by
    rw [run, Nat.add_sub_cancel, hupstream, hthere, ite_self, if_neg Bool.false_ne_true]
  rw [hrun]
  exact ⟨.requesting j,
    { running := h.running
      sole := h.sole.take _ _ _ fun _ _ hg => hg
      fits := Nat.le_of_lt h.fits
      fields := h.fields
      history := h.history
      looping := h.looping_take _ hstack _ _ _ rfl }⟩

/-- The generator makes the next event. -/
theorem generating (h : Sound c crew .generating) :
    ∃ p', Sound c (crew.perform (c.worker 0) [] (exec c crew.state (.generate .generate))) p' := by
  -- the generator has been asked for exactly one event
  have hbalance : crew.state.generator.requested.balance = 1 := h.fields.balance
  rcases RequestBalance.remove_isSome crew.state.generator.requested (by omega) with ⟨b, hb⟩
  have hzero := RequestBalance.remove_of_lt _ b 1 (by rw [hbalance]; decide) hb
  rcases h.history with ⟨n, hsent, hstate⟩
  have hexec : exec c crew.state (.generate .generate) = .go { crew.state with
      generator := { crew.state.generator with
        requested := b, state := (c.generator crew.state.generator.state).2 } }
      [.onNext 0 (c.generator crew.state.generator.state).1,
        .generate (.sent (c.generator crew.state.generator.state).1.isEnd)] none := by
    change perform c crew.state (GeneratingStream.generate _ _) = _
    rw [GeneratingStream.generate,
      if_pos ((RequestBalance.hasRequests_iff _).mpr (by omega)), hb]
    rfl
  rw [hexec]
  refine ⟨.sending 0 (c.generator crew.state.generator.state).1,
    { running := h.running
      sole := h.sole.call _ _ _ fun w g hg => Left.mono (Nat.zero_le _) w g hg
      fits := Nat.zero_le _
      fields := ?_
      history := ⟨n, ⟨hsent.received, hsent.values⟩, ?_, by rw [hstate, through]⟩
      looping := fun _ =>
        Or.inr ⟨.sent (c.generator crew.state.generator.state).1.isEnd, ?_, ?_⟩ }⟩
  · have hlevel : (Phase.sending 0 (c.generator crew.state.generator.state).1).level c = 0 := by
      simp only [Phase.level, passed, ite_self]
    rw [hlevel]
    exact
      { subscribed := h.fields.subscribed
        moved := h.fields.moved
        ended := h.fields.ended
        generatorEnded := h.fields.generatorEnded
        balance := by
          rw [Crew.state_perform]
          change b.balance = 0
          omega }
  -- the state of the generator is the one after one more event
  · rw [Crew.state_perform, GeneratingStream.after_succ, ← hstate]
  · simp only [ne_eq, reduceCtorEq, not_false_eq_true]
  · rw [Crew.stack_perform, Function.update_self]
    exact List.mem_cons_of_mem _ List.mem_cons_self

/-- The event goes through the maps. -/
theorem sending {j : Nat} {e : StatusOr (c.Elem j)} (h : Sound c crew (.sending j e)) :
    ∃ p', Sound c (crew.perform (c.worker j) (below j e.isEnd)
      (exec c crew.state (.onNext j e))) p' := by
  have hlevel : passed j e.isEnd < j + 1 := by
    unfold passed
    by_cases hend : e.isEnd = true
    · rw [if_pos hend]
      exact Nat.lt_succ_self j
    · rw [if_neg hend]
      exact Nat.succ_pos j
  have hthere := h.fields.there (j + 1) hlevel
  have hloop := h.looping_call _ _ _ rfl (fun k => by
    simp only [ne_eq, reduceCtorEq, not_false_eq_true])
  have hexec : exec c crew.state (.onNext j e) =
      .go crew.state [.arriving j ((c.maps j).apply e)] none := by
    rw [exec, if_neg (by rw [hthere]; exact Bool.false_ne_true)]
  rw [hexec]
  rcases h.history with ⟨n, hsent, hstate, he⟩
  -- a map keeps an end an end and a value a value
  have hend := Maps.isEnd_apply (c.maps j) e
  have hgoing : (Phase.arriving j ((c.maps j).apply e)).going c =
      some (c.worker j, .frame (.arriving j ((c.maps j).apply e)) ([] ++ below j e.isEnd)) := by
    rw [Phase.going, hend, List.nil_append]
  have hsame : (Phase.arriving j ((c.maps j).apply e)).level c = passed j e.isEnd := by
    rw [Phase.level, hend]
  exact ⟨.arriving j ((c.maps j).apply e),
    { running := h.running
      sole := by
        rw [hgoing, hsame]
        exact h.sole.call _ _ [] fun _ _ hg => hg
      fits := h.fits
      fields := by
        rw [hsame]
        exact h.fields
      history := ⟨n, hsent, hstate, by rw [he]; rfl⟩
      looping := hloop _ _ _ rfl }⟩

/-- The last event has come to the stream of the next hop. It goes on to the
    other worker with the subscriber. -/
theorem arriving_end {j : Nat} {e : StatusOr (c.Elem (j + 1))} (h : Sound c crew (.arriving j e))
    (hnot : j ≠ c.hops) (hend : e.isEnd = true) :
    ∃ p', Sound c (crew.perform (c.worker j) (below j e.isEnd)
      (exec c crew.state (.arriving j e))) p' := by
  have hloop := h.looping_call _ _ _ rfl (fun k => by
    simp only [ne_eq, reduceCtorEq, not_false_eq_true])
  have hlevel : (Phase.arriving j e).level c = j := by
    rw [Phase.level, hend]
    rfl
  have hsame : (Phase.queued j e).level c = j + 1 := by
    rw [Phase.level, hend]
    rfl
  have hgoing : (Phase.queued j e).going c = some (c.worker (j + 1), .task (.last (j + 1) e)) := by
    rw [Phase.going, if_pos hend]
  have hfields := hlevel ▸ h.fields
  have hthere := hfields.there (j + 1) (Nat.lt_succ_self j)
  rw [exec, if_neg (by rw [hthere]; exact Bool.false_ne_true), dif_neg hnot, onNext, if_pos hend]
  refine ⟨.queued j e,
    { running := h.running
      sole := ?_
      fits := Nat.lt_of_le_of_ne h.fits hnot
      fields := ?_
      history := ?_
      looping := hloop _ _ _ rfl }⟩
  · rw [hgoing, hsame]
    refine h.sole.send _ _ _ _ (fun w g hg => ?_) (fun g hg => ?_)
    · rw [hlevel] at hg
      exact hg.mono (Nat.le_succ j) w g
    · -- The group the event has come out of may be destroyed from now on.
      rw [hend, List.nil_append] at hg
      cases j with
      | zero =>
          rw [below, List.mem_singleton] at hg
          rw [hg]
          exact ⟨rfl, fun _ => Nat.le_refl 1⟩
      | succ j =>
          rw [below, if_pos rfl, List.mem_singleton] at hg
          rw [hg]
          exact ⟨by omega, Nat.le_refl _⟩
  · rw [hsame]
    exact hfields.last
  · have hunderway : Underway c crew.state (j + 1) e := h.history
    refine Underway.congr ?_ ?_ hunderway
    · rfl
    · rfl

/-- An event with a value has come to the stream of the next hop. -/
theorem arriving_value {j : Nat} {e : StatusOr (c.Elem (j + 1))}
    (h : Sound c crew (.arriving j e)) (hnot : j ≠ c.hops) (hend : e.isEnd = false) :
    ∃ p', Sound c (crew.perform (c.worker j) (below j e.isEnd)
      (exec c crew.state (.arriving j e))) p' := by
  have hloop := h.looping_call _ _ _ rfl (fun k => by
    simp only [ne_eq, reduceCtorEq, not_false_eq_true])
  have hlevel : (Phase.arriving j e).level c = 0 := by
    rw [Phase.level, hend]
    rfl
  have hsame : (Phase.queued j e).level c = 0 := by
    rw [Phase.level, hend]
    rfl
  have hgoing : (Phase.queued j e).going c =
      some (c.worker (j + 1), .task (.onNext (j + 1) e)) := by
    rw [Phase.going, hend]
    rfl
  have hfields := hlevel ▸ h.fields
  have hthere := hfields.there (j + 1) (Nat.succ_pos j)
  rw [exec, if_neg (by rw [hthere]; exact Bool.false_ne_true), dif_neg hnot, onNext,
    if_neg (by rw [hend]; exact Bool.false_ne_true)]
  refine ⟨.queued j e,
    { running := h.running
      sole := ?_
      fits := Nat.lt_of_le_of_ne h.fits hnot
      fields := ?_
      history := h.history
      looping := hloop _ _ _ rfl }⟩
  · rw [hgoing, hsame]
    refine h.sole.send _ _ _ _ (fun w g hg => ?_) (fun g hg => ?_)
    · rw [hlevel] at hg
      exact hg
    · rw [hend, List.nil_append] at hg
      -- what is left below the frame is the loop of the generator, or nothing
      cases j with
      | zero =>
          rw [below, List.mem_singleton] at hg
          rw [hg]
          exact ⟨rfl, by simp only [GeneratingStream.Point.sent.injEq, Bool.false_eq_true,
            false_implies]⟩
      | succ j =>
          rw [below, if_neg Bool.false_ne_true] at hg
          exact absurd hg List.not_mem_nil
  · rw [hsame]
    exact hfields

/-- The event has come to the subscriber, which asks for the next one if there
    is one. -/
theorem receiving {e : StatusOr (c.Elem (c.hops + 1))} (h : Sound c crew (.arriving c.hops e)) :
    ∃ p', Sound c (crew.perform (c.worker c.hops) (below c.hops e.isEnd)
      (exec c crew.state (.arriving c.hops e))) p' := by
  have hloop := h.looping_call _ _ _ rfl (fun k => by
    simp only [ne_eq, reduceCtorEq, not_false_eq_true])
  rcases Underway.received h.history with ⟨n, hstate, hreceived, hlast, hvalues⟩
  rcases Nat.exists_eq_succ_of_ne_zero (Nat.ne_of_gt c.one_le_hops) with ⟨i, hhops⟩
  cases hend : e.isEnd with
  -- the end is not answered by a request
  | true =>
      have hlevel : (Phase.arriving c.hops e).level c = c.hops := by
        rw [Phase.level, hend]
        rfl
      have hfields := hlevel ▸ h.fields
      have hthere := hfields.there (c.hops + 1) (Nat.lt_succ_self _)
      rw [exec, if_neg (by rw [hthere]; exact Bool.false_ne_true), dif_pos rfl, receive,
        if_pos hend, ← hend]
      refine ⟨.finished,
        { running := h.running
          sole := h.sole.finish _ _ (fun w g hg => ?_) (fun g hg => ?_)
          fits := trivial
          fields := hfields.complete _ rfl rfl
          history := ⟨n, hreceived, ?_⟩
          looping := hloop _ _ _ rfl }⟩
      · rw [hlevel] at hg
        exact hg.mono (Nat.le_succ _) w g
      · rw [hend, List.nil_append, hhops, below, if_pos rfl, List.mem_singleton] at hg
        rw [hg, Phase.level, hhops]
        exact ⟨by omega, Nat.le_refl _⟩
      · rw [Option.map_eq_some_iff] at hlast
        rcases hlast with ⟨e', he', hend'⟩
        exact ⟨e', he', hend'.trans hend⟩
  | false =>
      have hlevel : (Phase.arriving c.hops e).level c = 0 := by
        rw [Phase.level, hend]
        rfl
      have hfields := hlevel ▸ h.fields
      have hthere := hfields.there (c.hops + 1) (Nat.succ_pos _)
      have hgoing : (Phase.requesting c.hops : Phase c.Elem).going c =
          some (c.worker c.hops, .frame (.request c.hops 1) ([] ++ below c.hops e.isEnd)) := by
        rw [hend, hhops, below, if_neg Bool.false_ne_true]
        rfl
      rw [exec, if_neg (by rw [hthere]; exact Bool.false_ne_true), dif_pos rfl, receive,
        if_neg (by rw [hend]; exact Bool.false_ne_true), ← hend]
      refine ⟨.requesting c.hops,
        { running := h.running
          sole := ?_
          fits := Nat.le_refl _
          fields := hfields.congr _ rfl rfl
          history := ⟨n, ⟨hreceived, hvalues hend⟩, hstate⟩
          looping := hloop _ _ _ rfl }⟩
      rw [hgoing]
      refine h.sole.call _ _ [] fun w g hg => ?_
      rw [hlevel] at hg
      exact hg

/-- The task with an event calls the subscriber. For the last event it has it
    at hand, for others it looks whether the stream is there. -/
theorem queued {j : Nat} {e : StatusOr (c.Elem (j + 1))} (h : Sound c crew (.queued j e))
    (hstack : crew.stack (c.worker (j + 1)) = []) :
    ∃ p', Sound c ((crew.dequeue (c.worker (j + 1))).perform (c.worker (j + 1)) []
      (run c crew.state (if e.isEnd then .last (j + 1) e else .onNext (j + 1) e))) p' := by
  cases hend : e.isEnd with
  -- the task with the last event owns the subscriber, so it need not look
  | true =>
      have hgoing : (Phase.sending (j + 1) e).going c = some (c.worker (j + 1),
          .frame (.onNext (j + 1) e) [.destroy (j + 2)]) := by
        rw [Phase.going, hend]
        rfl
      rw [if_pos rfl, run]
      exact ⟨.sending (j + 1) e,
        { running := h.running
          sole := by
            rw [hgoing]
            exact h.sole.take _ _ _ fun _ _ hg => hg
          fits := h.fits
          fields := h.fields
          history := h.history
          looping := h.looping_take _ hstack _ _ _ rfl }⟩
  | false =>
      have hlevel : (Phase.queued j e).level c = 0 := by
        rw [Phase.level, hend]
        rfl
      have hfields := hlevel ▸ h.fields
      have hthere := hfields.there (j + 1) (Nat.succ_pos j)
      rw [if_neg Bool.false_ne_true, run, if_neg (by rw [hthere]; exact Bool.false_ne_true)]
      exact ⟨.calling j e,
        { running := h.running
          sole := h.sole.take _ _ _ fun w g hg => by
            rw [hlevel] at hg
            exact hg
          fits := ⟨h.fits, hend⟩
          fields := hfields
          history := h.history
          looping := h.looping_take _ hstack _ _ _ rfl }⟩

/-- The pointer to the subscriber is followed. -/
theorem calling {j : Nat} {e : StatusOr (c.Elem (j + 1))} (h : Sound c crew (.calling j e)) :
    ∃ p', Sound c (crew.perform (c.worker (j + 1)) []
      (exec c crew.state (.calling (j + 1) e))) p' := by
  have hloop := h.looping_call _ _ _ rfl (fun k => by
    simp only [ne_eq, reduceCtorEq, not_false_eq_true])
  have hend : e.isEnd = false := h.fits.2
  have hthere := h.fields.there (j + 1) (Nat.succ_pos j)
  -- the subscriber is moved away only with the last event, and this is none
  have howned : (crew.state.stream (j + 1)).subscriberMoved = false := by
    rw [← Bool.not_eq_true, h.fields.moved (j + 1) (Nat.succ_pos j) h.fits.1]
    exact Nat.not_succ_le_zero j
  have hlevel : (Phase.sending (j + 1) e).level c = 0 := by
    rw [Phase.level, hend]
    rfl
  have hgoing : (Phase.sending (j + 1) e).going c =
      some (c.worker (j + 1), .frame (.onNext (j + 1) e) ([] ++ [])) := by
    rw [Phase.going, hend]
    rfl
  rw [exec, howned, hthere, Bool.or_false, if_neg Bool.false_ne_true]
  exact ⟨.sending (j + 1) e,
    { running := h.running
      sole := by
        rw [hgoing, hlevel]
        exact h.sole.call _ _ [] fun _ _ hg => hg
      fits := h.fits.1
      fields := by
        rw [hlevel]
        exact h.fields
      history := h.history
      looping := hloop _ _ _ rfl }⟩

/-- The invariant is kept by every worker. -/
theorem step {p : Phase c.Elem} (h : Sound c crew p) (v : W) :
    ∃ p', Sound c (crew.step (code c) v) p' := by
  -- a worker has nothing to do, winds up, takes the task on its way or goes on with the
  -- frame on its way
  rcases h.sole.step_cases (code c) v with
    hidle | ⟨f, rest, hstack, hleft, hnone, hstep⟩ | ⟨t, hgoing, hstack, hstep⟩ |
    ⟨f, rest, hgoing, hstep⟩
  · rw [hidle]
    exact ⟨p, h⟩
  · rw [hstep]
    exact ⟨p, h.leave v f rest hstack hleft hnone⟩
  · rw [hstep]
    cases p with
    | subscribing j =>
        cases hgoing
        exact h.subscribing hstack
    | subscribed j =>
        cases hgoing
        exact h.subscribed hstack
    | asking j =>
        cases hgoing
        exact h.asking hstack
    | queued j e =>
        cases hgoing
        exact h.queued hstack
    | _ => cases hgoing
  · rw [hstep]
    cases p with
    | announcing j =>
        cases hgoing
        exact h.announcing
    | requesting j =>
        cases hgoing
        exact h.requesting
    | passing j =>
        cases hgoing
        cases j with
        | zero => exact h.passing_zero
        | succ j => exact h.passing_succ
    | generating =>
        cases hgoing
        exact h.generating
    | calling j e =>
        cases hgoing
        exact h.calling
    | sending j e =>
        cases hgoing
        exact h.sending
    | arriving j e =>
        cases hgoing
        by_cases hlast : j = c.hops
        · subst hlast
          exact h.receiving
        · cases hend : e.isEnd with
          | true => exact hend ▸ h.arriving_end hlast hend
          | false => exact hend ▸ h.arriving_value hlast hend
    | _ => cases hgoing

/-- The task of the last hop's publisher is the first thing on its way. -/
theorem start : Sound c (AsyncChain.start c) (.subscribing (c.hops - 1)) where
  running := rfl
  sole :=
    { queue := fun v hv => by
        by_cases heq : v = c.worker (c.hops - 1)
        · exact ⟨_, by rw [heq]; rfl⟩
        · rw [queue_start, if_neg heq] at hv
          exact absurd rfl hv
      task := fun v t ht => by
        cases ht
        have hpos := c.one_le_hops
        rw [queue_start, if_pos rfl, Nat.sub_add_cancel hpos]
      frame := fun v f rest hv => by cases hv
      left := fun v _ g hg => absurd hg List.not_mem_nil }
  fits := Nat.sub_lt c.one_le_hops Nat.one_pos
  fields :=
    { subscribed := fun j hj => ⟨fun hsub => absurd hsub Bool.false_ne_true, fun hle => by
        change j ≤ 0 at hle
        omega⟩
      moved := fun j hj _ => ⟨fun hmoved => absurd hmoved Bool.false_ne_true, fun hle => by
        change j ≤ 0 at hle
        omega⟩
      ended := fun j _ hended => absurd hended Bool.false_ne_true
      generatorEnded := fun hended => absurd hended Bool.false_ne_true
      balance := rfl }
  history := ⟨0, ⟨rfl, fun e he => absurd he List.not_mem_nil⟩, rfl⟩
  looping hgenerating := absurd hgenerating Bool.false_ne_true

theorem reach (crew : Workers c) (h : Reach c crew) : ∃ p, Sound c crew p :=
  Crew.Reach.induct (fun crew => ∃ p, Sound c crew p) ⟨_, start⟩
    (fun _ v hp _ => hp.elim fun _ hp => hp.step v) crew h

end Sound

end Steps

section Delivery

variable {c : AsyncChain S W}

/-- Leftovers carry no events. -/
theorem Left.hop?_eq {l : Nat} {v : W} {f : Frame c.Elem} (h : Left c l v f) : f.hop? = none := by
  cases f with
  | generate k => rfl
  | destroy j => rfl
  | _ => exact h.elim

theorem hop?_of_mem_below {Elem : Nat → Type} (j : Nat) (isEnd : Bool) (g : Frame Elem)
    (hg : g ∈ below j isEnd) : g.hop? = none := by
  cases j with
  | zero =>
      rw [List.mem_singleton.mp hg]
      rfl
  | succ j =>
      cases isEnd with
      | true =>
          rw [List.mem_singleton.mp hg]
          rfl
      | false => exact absurd hg List.not_mem_nil

/-- A task on its way is at its hop. -/
theorem Phase.hop?_task (p : Phase c.Elem) (v : W) (t : Task c.Elem)
    (hgoing : p.going c = some (v, .task t)) : t.hop? = p.hop? c := by
  cases p with
  | queued j e =>
      cases hgoing
      cases hend : e.isEnd with
      | true => rfl
      | false => rfl
  | subscribing j =>
      cases hgoing
      rfl
  | subscribed j =>
      cases hgoing
      rfl
  | asking j =>
      cases hgoing
      rfl
  | _ => cases hgoing

/-- So is a piece of code, and what is below it carries no events. -/
theorem Phase.hop?_frame (p : Phase c.Elem) (v : W) (f : Frame c.Elem)
    (rest : List (Frame c.Elem)) (hgoing : p.going c = some (v, .frame f rest)) :
    f.hop? = p.hop? c ∧ ∀ g ∈ rest, g.hop? = none := by
  cases p with
  | subscribing i => cases hgoing
  | subscribed i => cases hgoing
  | asking i => cases hgoing
  | queued i e => cases hgoing
  | finished => cases hgoing
  | announcing i =>
      cases hgoing
      refine ⟨rfl, fun g hg => ?_⟩
      by_cases hi : i = 0
      · rw [if_pos hi, List.mem_singleton] at hg
        rw [hg]
        rfl
      · rw [if_neg hi] at hg
        exact absurd hg List.not_mem_nil
  | sending i e =>
      cases hgoing
      exact ⟨rfl, hop?_of_mem_below _ _⟩
  | arriving i e =>
      cases hgoing
      exact ⟨rfl, hop?_of_mem_below _ _⟩
  | _ =>
      cases hgoing
      exact ⟨rfl, fun g hg => absurd hg List.not_mem_nil⟩

namespace Sound

variable {crew : Workers c} {p : Phase c.Elem} (h : Sound c crew p)

include h

/-- At most one event is at a hop, and only where the event on its way is. -/
theorem inFlightAt_le (j : Nat) : c.inFlightAt crew j ≤ if p.hop? c = some j then 1 else 0 := by
  have hqueue : (∀ t, p.going c ≠ some (c.worker j, .task t)) →
      (crew.queue (c.worker j)).countP (fun t => t.hop? = some j) = 0 := by
    intro hnone
    rw [h.sole.queue_eq_nil _ hnone]
    rfl
  have hstack : (∀ f rest, p.going c ≠ some (c.worker j, .frame f rest)) →
      (crew.stack (c.worker j)).countP (fun f => f.hop? = some j) = 0 := by
    intro hnone
    rw [List.countP_eq_zero]
    intro g hg
    rw [(h.sole.left _ hnone g hg).hop?_eq]
    exact of_decide_eq_false rfl
  unfold inFlightAt
  -- the event is in the queue of one worker or on its stack, never in both
  by_cases htask : ∃ t, p.going c = some (c.worker j, .task t)
  · rcases htask with ⟨t, hgoing⟩
    have hzero := hstack fun f rest heq => by
      rw [hgoing, Option.some.injEq, Prod.mk.injEq] at heq
      exact absurd heq.2 (by simp only [reduceCtorEq, not_false_eq_true])
    rw [hzero, Nat.add_zero, h.sole.task _ t hgoing, List.countP_singleton,
      p.hop?_task _ t hgoing]
    simp only [decide_eq_true_eq, Nat.le_refl]
  · rw [hqueue fun t heq => htask ⟨t, heq⟩, Nat.zero_add]
    by_cases hframe : ∃ f rest, p.going c = some (c.worker j, .frame f rest)
    · rcases hframe with ⟨f, rest, hgoing⟩
      rcases p.hop?_frame _ f rest hgoing with ⟨hhop, hrest⟩
      have hzero : rest.countP (fun f => f.hop? = some j) = 0 := by
        rw [List.countP_eq_zero]
        intro g hg
        rw [hrest g hg]
        exact of_decide_eq_false rfl
      rw [h.sole.frame _ f rest hgoing, List.countP_cons, hzero, Nat.zero_add, hhop]
      simp only [decide_eq_true_eq, Nat.le_refl]
    · rw [hstack fun f rest heq => hframe ⟨f, rest, heq⟩]
      exact Nat.zero_le _

/-- At most one event is on its way over all hops. -/
theorem inFlight_le : c.inFlight crew ≤ 1 := by
  have hle := h.inFlightAt_le
  have hzero : ∀ i, p.hop? c = some i ∨ p.hop? c = none → ∀ j, j ≠ i →
      c.inFlightAt crew j = 0 := by
    intro i hi j hne
    have hj := hle j
    rw [if_neg fun heq => ?_, Nat.le_zero] at hj
    · exact hj
    · rcases hi with hi | hi
      · exact hne (Option.some.inj (heq.symm.trans hi))
      · exact absurd (heq.symm.trans hi) (Option.some_ne_none j)
  have hone : ∀ j, c.inFlightAt crew j ≤ 1 := by
    intro j
    refine Nat.le_trans (hle j) ?_
    by_cases hj : p.hop? c = some j
    · exact Nat.le_of_eq (if_pos hj)
    · rw [if_neg hj]
      exact Nat.zero_le 1
  refine Nat.le_trans
    (total_le_of_unique _ _ List.nodup_range ((p.hop? c).getD 0) (hzero _ ?_)) (hone _)
  cases hhop : p.hop? c with
  | none => exact Or.inr rfl
  | some i => exact Or.inl rfl

/-- What was received are the first events of the generator. -/
theorem received : ∃ n, crew.state.received =
    (GeneratingStream.events c.generator n c.initial).map (c.through (c.hops + 1)) := by
  have hhistory := h.history
  cases p with
  | queued j e =>
      rcases hhistory with ⟨n, hsent, -⟩
      exact ⟨n, hsent.received⟩
  | calling j e =>
      rcases hhistory with ⟨n, hsent, -⟩
      exact ⟨n, hsent.received⟩
  | sending j e =>
      rcases hhistory with ⟨n, hsent, -⟩
      exact ⟨n, hsent.received⟩
  | arriving j e =>
      rcases hhistory with ⟨n, hsent, -⟩
      exact ⟨n, hsent.received⟩
  | finished =>
      rcases hhistory with ⟨n, hreceived, -⟩
      exact ⟨n, hreceived⟩
  | _ =>
      rcases hhistory with ⟨n, hsent, -⟩
      exact ⟨n, hsent.received⟩

/-- When nothing is left to do the end has been received. -/
theorem complete (hdrained : crew.Drained) : Complete c crew.state := by
  have hnone := h.sole.eq_none_of_drained hdrained
  have hhistory := h.history
  cases p with
  | finished => exact hhistory
  | _ => cases hnone

end Sound

namespace Emits

variable {events : List (StatusOr (c.Elem 0))} (h : c.Emits events)

include h

/-- After the end the generator makes no more events. -/
theorem events_eq_of_le (n : Nat) (hle : events.length ≤ n) :
    GeneratingStream.events c.generator n c.initial = events := by
  rcases h.ends with ⟨e, hlast, hend⟩
  have hmem : e ∈ GeneratingStream.events c.generator events.length c.initial :=
    h.made ▸ List.mem_of_getLast? hlast
  exact (GeneratingStream.events_eq_of_isEnd c.generator _ n _ e hmem hend hle).trans h.made.symm

/-- The first events of the generator are the first ones of all. -/
theorem events_prefix (n : Nat) :
    GeneratingStream.events c.generator n c.initial <+: events := by
  rcases Nat.le_total n events.length with hle | hle
  · have hevents := GeneratingStream.events_prefix_of_le c.generator n _ c.initial hle
    rw [← h.made] at hevents
    exact hevents
  · exact h.events_eq_of_le n hle ▸ List.prefix_refl events

/-- Those with an end are all of them. -/
theorem eq_of_isEnd (n : Nat) (e : StatusOr (c.Elem 0))
    (he : e ∈ GeneratingStream.events c.generator n c.initial) (hend : e.isEnd = true) :
    GeneratingStream.events c.generator n c.initial = events := by
  rcases Nat.le_total n events.length with hle | hle
  · exact (GeneratingStream.events_eq_of_isEnd c.generator n _ _ e he hend hle).symm.trans
      h.made.symm
  · exact h.events_eq_of_le n hle

end Emits

/-- In every run over any number of hops no check fails, the subscriber has
    received the first of the mapped events in order, at most one event is on
    its way, and when no worker has anything left to do all events have been
    received, the end included. -/
theorem exactly_once [DecidableEq W] (events : List (StatusOr (c.Elem 0))) (hemits : c.Emits events)
    (crew : Workers c) (h : Reach c crew) :
    crew.failed = none ∧
    crew.state.received <+: events.map (c.through (c.hops + 1)) ∧
    c.inFlight crew ≤ 1 ∧
    (crew.Drained → crew.state.received = events.map (c.through (c.hops + 1))) := by
  rcases Sound.reach crew h with ⟨p, hsound⟩
  refine ⟨hsound.running, ?_, hsound.inFlight_le, fun hdrained => ?_⟩
  · rcases hsound.received with ⟨n, hreceived⟩
    rw [hreceived]
    exact (hemits.events_prefix n).map _
  · rcases hsound.complete hdrained with ⟨n, hreceived, e, hlast, hend⟩
    rw [hreceived, hemits.eq_of_isEnd n e (List.mem_of_getLast? hlast) hend]

end Delivery

section Shuttle

/-- Three hops between two workers, with a map in front of the first and of the
    last one. -/
def shuttle : AsyncChain (List Nat) Bool where
  hops := 3
  one_le_hops := by decide
  Elem _ := Nat
  generator
    | [] => (.done, [])
    | v :: vs => (.value v, vs)
  initial := [1, 2]
  maps j := if j % 2 == 0 then .cons (· + 10) .nil else .nil
  worker j := j % 2 == 0

/-- The workers take turns until they have nothing left to do. -/
def shuttled : Workers shuttle :=
  Crew.play (code shuttle) (start shuttle) ((List.range 160).map (· % 2 == 0))

theorem exactly_once_shuttle :
    shuttled.state.received = ([.value 21, .value 22, .done] : List (StatusOr Nat)) := by
  have hreach : Reach shuttle shuttled :=
    Crew.reach_of_play _ _ _ _ .start (by decide +kernel)
  have hempty : ∀ v, (shuttled.queue v).length = 0 ∧ (shuttled.stack v).length = 0 := by
    decide +kernel
  have hdrained : shuttled.Drained := fun v =>
    ⟨List.length_eq_zero_iff.mp (hempty v).1, List.length_eq_zero_iff.mp (hempty v).2⟩
  have hemits : Emits shuttle ([.value 1, .value 2, .done] : List (StatusOr Nat)) :=
    ⟨rfl, .done, rfl, rfl⟩
  exact (exactly_once _ hemits shuttled hreach).2.2.2 hdrained

end Shuttle

end AsyncChain

end RxCppUniq
