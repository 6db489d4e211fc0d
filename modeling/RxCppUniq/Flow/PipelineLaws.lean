import RxCppUniq.Flow.Pipelines

/-!
# Laws of Pipelines

What a subscriber can tell of a pipeline is its listing: two pipelines that do
not give up are indistinguishable if and only if they have the same listing,
however they are built. The laws of `Map` and `FlatMap` are equations of
listings.

`FlatMap` is associative in what it delivers. When the operators are nested to
the right, a continuation is a `FlatMap` itself, which may give up after its
error; the subscriber has received everything by then.

## Main definitions

* `Pipeline.Indistinguishable`: No subscriber tells two pipelines apart.
* `Pipeline.Mild`: A pipeline that is safe as a continuation.

## Theorems

* `Listing.flatMap_flatMap`: Flattening is associative.
* `Pipeline.indistinguishable_iff`: Pipelines are told apart by their listings.
* `Pipeline.rewrites`: `Map` is a special case of `FlatMap`.
* `Pipeline.flatMap_assoc`: `FlatMap` is associative.
-/

namespace RxCppUniq

open Theory Theory.Machine

open GeneratingStream (NoParts)

/-- What was received before is still received. -/
theorem received_prefix {T : Type} {old log : Log T Empty NoParts} (h : old <:+ log) :
    received old <+: received log := by
  rcases h with ⟨new, rfl⟩
  rw [received, received, List.filterMap_append, List.reverse_append]
  exact List.prefix_append _ _

namespace Listing

variable {T R U : Type}

theorem andThen_assoc (x y z : Listing T) :
    (x.andThen y).andThen z = x.andThen (y.andThen z) := by
  by_cases hx : x.ending.code = .outOfRange
  · by_cases hy : y.ending.code = .outOfRange
    · simp only [andThen, hx, hy, if_true, List.append_assoc]
    · simp only [andThen, hx, hy, if_true, if_false]
  · simp only [andThen, hx, if_false]

/-- What is flattened in two parts. The induction is on the values of the first. -/
theorem andThen_flatMap (x y : Listing T) (f : T → Listing R) :
    (x.andThen y).flatMap f = (x.flatMap f).andThen (y.flatMap f) := by
  have hrest : ∀ vs, ((x.rest vs).andThen y).flatMap f =
      ((x.rest vs).flatMap f).andThen (y.flatMap f) := by
    intro vs
    induction vs with
    | nil =>
        by_cases hdone : x.ending.code = .outOfRange
        · rw [andThen_done x y hdone, flatMap_nil]
          exact (andThen_done { x with values := [] } _ hdone).symm
        · rw [andThen_error x y [] hdone, flatMap_nil]
          exact (andThen_error { x with values := [] } _ [] hdone).symm
    | cons v vs ih => rw [andThen_cons, flatMap_cons, flatMap_cons, ih, andThen_assoc]
  exact hrest x.values

/-- Flattening is associative. -/
theorem flatMap_flatMap (x : Listing T) (f : T → Listing R) (g : R → Listing U) :
    (x.flatMap f).flatMap g = x.flatMap fun v => (f v).flatMap g := by
  have hrest : ∀ vs, ((x.rest vs).flatMap f).flatMap g =
      (x.rest vs).flatMap fun v => (f v).flatMap g := by
    intro vs
    induction vs with
    | nil => rfl
    | cons v vs ih => rw [flatMap_cons, andThen_flatMap, ih, flatMap_cons]
  exact hrest x.values

/-- To replace each value by the listing of one value is to apply a function. -/
theorem flatMap_single (x : Listing T) (g : T → R) :
    (x.flatMap fun v => (Source.ofValues [g v]).listing) = x.mapValues g := by
  have hrest : ∀ vs, ((x.rest vs).flatMap fun v => (Source.ofValues [g v]).listing) =
      (x.rest vs).mapValues g := by
    intro vs
    induction vs with
    | nil => rfl
    | cons v vs ih =>
        rw [flatMap_cons, ih]
        rfl
  exact hrest x.values

theorem mapValues_flatMap (x : Listing T) (g : T → R) (f : R → Listing U) :
    (x.mapValues g).flatMap f = x.flatMap fun v => f (g v) := by
  rw [flatMap, mapValues, List.foldr_map]
  rfl

/-- The events tell the listing. -/
theorem events_injective {x y : Listing T} (h : x.events = y.events) : x = y := by
  rcases List.append_inj' h rfl with ⟨hvalues, hending⟩
  rw [List.singleton_inj, StatusOr.status.injEq] at hending
  refine Listing.ext ?_ hending
  refine (List.map_inj_right ?_).mp hvalues
  exact fun v w hvw => StatusOr.value.inj hvw

/-- The generator of a listing stands for it. -/
theorem behaves_stream (x : Listing T) (st : Open x.stream)
    (h : Open.Reach subscriptionCheck (LogRules Subscribing) st) : x.Behaves False st :=
  behaves_of_simulation (A := x.stream) ((Source.ofList x.values x.ending x.notOk).simulation
      False False) st h

/-- A subscriber that asks for everything receives everything. -/
theorem exists_all (x : Listing T) :
    ∃ st : Open x.stream, Open.Reach subscriptionCheck (LogRules Subscribing) st ∧
      st.turn = .outside ∧ received st.log = x.events := by
  have hmax : 1 ≤ kMax ∧ kMax ≤ kMax := by
    rw [kMax]
    omega
  have hsub : LogRules Subscribing (Open.init x.stream) (.call .subscribe) := rfl
  have hstep : Open.Step subscriptionCheck (LogRules Subscribing) (Open.init x.stream) _ :=
    Machine.step_call (Open.init x.stream) .subscribe rfl rfl rfl hsub
  have hreach := Open.Reach.step _ _ .init hstep
  generalize hst : Open.perform subscriptionCheck _ _ = st at hreach
  have hturn : st.turn = .outside := by rw [← hst]; rfl
  have hlog : st.log = [.out .onSubscribe, .call .subscribe] := by rw [← hst]; rfl
  have hask : LogRules Subscribing st (.call (.request kMax)) := by
    change subscribed st.log = true ∧ _
    rw [hlog]
    exact ⟨rfl, hmax⟩
  have hstep' : Open.Step subscriptionCheck (LogRules Subscribing) st _ :=
    Machine.step_call st (.request kMax) hturn (by rw [← hst]; rfl) (by rw [← hst]; rfl) hask
  have hreach' := Open.Reach.step _ _ hreach hstep'
  rcases (x.behaves_stream _ hreach').settles with ⟨st', hlater, ⟨hturn', hstack'⟩ | hfailed⟩
  · have hdemand : cancelCalled st'.log = false ∧ (outstanding st'.log).balance = kMax := by
      refine log_of_returns (P := fun log => cancelCalled log = false ∧
        (outstanding log).balance = kMax) (fun o log h => ⟨h.1, ?_⟩) ?_ hlater ?_
      · rw [outstanding_cons, Entry.demand, RequestBalance.counted, RequestBalance.add_zero,
          RequestBalance.remove_kMax _ _ h.2]
        exact h.2
      · intro p c log h
        rw [outstanding_cons, Entry.demand, Entry.served, RequestBalance.counted_add,
          RequestBalance.add_zero]
        exact h
      · subst hst
        refine ⟨rfl, ?_⟩
        change (outstanding ([.call (.request kMax), .out .onSubscribe, .call .subscribe] :
          Log T Empty NoParts)).balance = kMax
        simp only [outstanding_cons, outstanding_nil, Entry.demand, Entry.served, Call.count,
          RequestBalance.counted_add, RequestBalance.balance_add, RequestBalance.balance_zero]
        omega
    have hreach2 := Simulation.reach_returns hreach' hlater
    exact ⟨st', hreach2, hturn', ((x.behaves_stream st' hreach2).delivers hturn').infinite
      hdemand.1 hstack' hdemand.2⟩
  · exact hfailed.2.1.elim

end Listing

namespace Pipeline

variable {T R U : Type}

/-- What a subscriber of a pipeline may have seen. -/
abbrev Shows (p : Pipeline T) (log : Log T Empty NoParts) (depth : Nat) (ended : Bool) : Prop :=
  Theory.Shows subscriptionCheck Subscribing p.machine log depth ended

/-- Whatever may be seen of one pipeline may be seen of the other. -/
def Indistinguishable (p q : Pipeline T) : Prop :=
  ∀ log depth ended, p.Shows log depth ended ↔ q.Shows log depth ended

/-- Such a pipeline may be a continuation. -/
def Mild (p : Pipeline T) : Prop :=
  p.Safe ∧ (p.plain = true ∨ p.listing.ending.code = .outOfRange)

section Shown

variable {p q : Pipeline T} {log : Log T Empty NoParts} {depth : Nat} {ended : Bool}

theorem shows_listing (h : p.Shows log depth ended) :
    Theory.Shows subscriptionCheck Subscribing p.listing.stream log depth ended := by
  rcases p.exists_simulation with ⟨S⟩
  exact S.shows allow_of_subscribing h

theorem shows_of_listing (hsafe : p.Safe)
    (h : Theory.Shows subscriptionCheck Subscribing p.listing.stream log depth ended) :
    p.Shows log depth ended := by
  rcases p.exists_simulation_safe hsafe with ⟨S⟩
  rcases S.shows_back allow_of_subscribing h with hshown | ⟨st, -, hgave, -⟩
  · exact hshown
  · exact hgave.2.2.elim

/-- All that is received of the one pipeline is received of the other. -/
theorem events_of_shows (hsafe : p.Safe)
    (h : ∀ log depth ended, p.Shows log depth ended → q.Shows log depth ended) :
    p.listing.events = q.listing.events.take p.listing.events.length := by
  rcases p.listing.exists_all with ⟨st, hreach, hturn, hall⟩
  have hshown : p.Shows st.log _ _ := shows_of_listing hsafe ⟨st, hreach, hturn, rfl, rfl, rfl⟩
  rcases shows_listing (h _ _ _ hshown) with ⟨st', hreach', hturn', hlog, -, -⟩
  have hexact := ((q.listing.behaves_stream st' hreach').delivers hturn').exact
  rwa [hlog, hall] at hexact

/-- Pipelines with one listing look the same. -/
theorem indistinguishable_of_listing (hp : p.Safe) (hq : q.Safe) (heq : p.listing = q.listing) :
    Indistinguishable p q := by
  intro log depth ended
  constructor
  · intro h
    have hshown := shows_listing h
    rw [heq] at hshown
    exact shows_of_listing hq hshown
  · intro h
    have hshown := shows_listing h
    rw [← heq] at hshown
    exact shows_of_listing hp hshown

end Shown

/-- Safe pipelines are told apart by what they publish, and by nothing else. -/
theorem indistinguishable_iff (p q : Pipeline T) (hp : p.Safe) (hq : q.Safe) :
    Indistinguishable p q ↔ p.listing = q.listing := by
  constructor
  · intro h
    have hpq := events_of_shows hp fun log depth ended => (h log depth ended).mp
    have hqp := events_of_shows hq fun log depth ended => (h log depth ended).mpr
    have hle := congrArg List.length hpq
    have hle' := congrArg List.length hqp
    rw [List.length_take] at hle hle'
    refine Listing.events_injective (hpq.trans (List.take_of_length_le ?_))
    omega
  · exact indistinguishable_of_listing hp hq

theorem mild_source (s : Source T) : (source s).Mild :=
  ⟨trivial, Or.inl rfl⟩

theorem indistinguishable_tens :
    Indistinguishable tens (.source (.ofValues [1, 10, 2, 20])) :=
  (indistinguishable_iff tens _ tens_safe (mild_source _).1).mpr rfl

/-- `Map` is a `FlatMap`, two of them are one, one before a `FlatMap` is part of
    its function, and a `FlatMap` may do nothing at all. -/
theorem rewrites (p : Pipeline T) (g : T → R) (h : R → U) (k : R → Pipeline U) (hp : p.Safe)
    (hk : ∀ w, (k w).Mild) :
    Indistinguishable (p.flatMap fun v => .source (.ofValues [g v])) (p.map g) ∧
      Indistinguishable ((p.map g).map h) (p.map fun v => h (g v)) ∧
      Indistinguishable ((p.map g).flatMap k) (p.flatMap fun v => k (g v)) ∧
      Indistinguishable (p.flatMap fun v => .source (.ofValues [v])) p := by
  have hsafe : ∀ {W : Type} (g : T → W),
      (p.flatMap fun v => .source (.ofValues [g v])).Safe :=
    fun g => ⟨hp, fun v => ⟨trivial, Or.inl rfl⟩⟩
  refine ⟨?_, ?_, ?_, ?_⟩
  · exact indistinguishable_of_listing (hsafe g) (q := p.map g) hp (p.listing.flatMap_single g)
  · refine indistinguishable_of_listing (p := (p.map g).map h)
        (q := p.map fun v => h (g v)) hp hp ?_
    simp only [listing, Listing.mapValues, List.map_map, Function.comp_def]
  · have hleft : ((p.map g).flatMap k).Safe := ⟨hp, hk⟩
    have hright : (p.flatMap fun v => k (g v)).Safe := ⟨hp, fun v => hk (g v)⟩
    exact indistinguishable_of_listing hleft hright (p.listing.mapValues_flatMap g _)
  · refine indistinguishable_of_listing (hsafe id) hp ?_
    refine (p.listing.flatMap_single id).trans ?_
    rw [Listing.mapValues, List.map_id]

theorem rewrites_tens :
    Indistinguishable ((tens.map (· + 1)).flatMap fun v => .source (.ofValues [v, v]))
        (tens.flatMap fun v => .source (.ofValues [v + 1, v + 1])) ∧
      Indistinguishable (tens.flatMap fun v => .source (.ofValues [v])) tens := by
  rcases rewrites tens (· + 1) (2 * ·) (fun v => .source (.ofValues [v, v])) tens_safe
    (fun _ => mild_source _) with ⟨-, -, hmove, hsame⟩
  exact ⟨hmove, hsame⟩

/-- `FlatMap` is associative. Nested to the right, it may give up after an error,
    when the subscriber has received the same. -/
theorem flatMap_assoc (p : Pipeline T) (f : T → Pipeline R) (g : R → Pipeline U) (hp : p.Safe)
    (hf : ∀ v, (f v).Mild) (hg : ∀ w, (g w).Mild) :
    (∀ log depth ended, (p.flatMap fun v => (f v).flatMap g).Shows log depth ended →
      ((p.flatMap f).flatMap g).Shows log depth ended) ∧
    (∀ log depth ended, ((p.flatMap f).flatMap g).Shows log depth ended →
      (p.flatMap fun v => (f v).flatMap g).Shows log depth ended ∨
        (∃ e ∈ received log, e.isError = true) ∧
          ∃ st : Open (p.flatMap fun v => (f v).flatMap g).machine,
            Open.Reach subscriptionCheck (LogRules Subscribing) st ∧
              st.turn.isFailed = true ∧ received st.log = received log) ∧
    ((∀ v, ((f v).flatMap g).listing.ending.code = .outOfRange) →
      Indistinguishable ((p.flatMap f).flatMap g) (p.flatMap fun v => (f v).flatMap g)) := by
  have hlisting : ((p.flatMap f).flatMap g).listing =
      (p.flatMap fun v => (f v).flatMap g).listing := Listing.flatMap_flatMap _ _ _
  have hleft : ((p.flatMap f).flatMap g).Safe := ⟨⟨hp, hf⟩, hg⟩
  refine ⟨?_, ?_, ?_⟩
  -- the left nesting is safe, so it shows what the listing shows
  · intro log depth ended h
    have hshown := shows_listing h
    rw [← hlisting] at hshown
    exact shows_of_listing hleft hshown
  · intro log depth ended h
    have hshown := shows_listing h
    rw [hlisting] at hshown
    rcases (p.flatMap fun v => (f v).flatMap g).exists_simulation with ⟨S⟩
    rcases S.shows_back allow_of_subscribing hshown with hsame | ⟨st, hreach, hgave, hsuffix⟩
    · exact Or.inl hsame
    · -- the error is the last event, whatever is called after it
      rcases error_of_failed st.log hgave.2.1 with ⟨e, he, herror⟩
      rcases hshown with ⟨st', hreach', hturn', hlog, -, -⟩
      have hexact := ((Listing.behaves_stream _ st' hreach').delivers hturn').exact
      rw [hlog] at hexact
      have hbegin := received_prefix hsuffix
      have hall := hbegin.trans (hexact ▸ List.take_prefix _ _)
      have hsent := Listing.received_all (List.prefix_iff_eq_take.mp hall)
        ⟨e, he, e.isEnd_of_isError herror⟩
      have hsent' := Listing.received_all hexact
        ⟨e, hbegin.subset he, e.isEnd_of_isError herror⟩
      exact Or.inr ⟨⟨e, hbegin.subset he, herror⟩, st, hreach, hgave.1, hsent.trans hsent'.symm⟩
  · intro hdone
    have hright : (p.flatMap fun v => (f v).flatMap g).Safe :=
      ⟨hp, fun v => ⟨⟨(hf v).1, hg⟩, Or.inr (hdone v)⟩⟩
    exact indistinguishable_of_listing hleft hright hlisting

theorem flatMap_assoc_tens :
    Indistinguishable (tens.flatMap fun v => .source (.ofValues [v, v + 1]))
      ((Pipeline.source (.ofValues [1, 2])).flatMap fun v =>
        (Pipeline.source (.ofValues [v, 10 * v])).flatMap fun w =>
          .source (.ofValues [w, w + 1])) :=
  (flatMap_assoc (.source (.ofValues [1, 2])) (fun v => .source (.ofValues [v, 10 * v]))
    (fun w => .source (.ofValues [w, w + 1])) (mild_source _).1 (fun _ => mild_source _)
    fun _ => mild_source _).2.2 fun _ => rfl

end Pipeline

end RxCppUniq
