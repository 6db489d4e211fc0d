import RxCppUniq.Flow.FlatMapDemand

/-!
# Runs of FlatMap

The invariant of `FlatMapStream` is kept by every call, one lemma for each,
and so it holds in every state of a run next to a careful subscriber. The
lemmas are about the state after `Open.perform`: either the call is carried
out and the invariant holds again, or a check fails and the run is over.

## Theorems

* `FlatMapStream.good_step`: The invariant is kept by every step.
* `FlatMapStream.one_base_element`: Next to a careful subscriber at most one
  base element is under way.
* `FlatMapStream.request_overruns`: A request without room breaks this at
  once.
* `FlatMapStream.limited`: Next to a careful subscriber the flow control is
  strict as far as balances go.
-/

namespace RxCppUniq

open Theory

namespace FlatMapStream

variable {T R : Type} {bounded : Bool} {s : FlatMapStream} {vs : List T}
  {st : Open (component T R)}

theorem good_subscribe (h : Inv bounded st.state st.kinds st.log) (hlog : st.log = []) :
    Good bounded (Open.perform subscriptionCheck { st with log := .call .subscribe :: st.log }
      ((component T R).call st.views st.state .subscribe)) := by
  rcases h.stage with ⟨-, hkinds, hstate⟩ | ⟨vs, hf⟩ | ⟨vs, hf⟩
  · refine Or.inl ⟨rfl, ?_⟩
    simp only [component, Open.perform_make, hlog, hkinds, hstate, List.length_nil,
      List.nil_append]
    refine ⟨fun p hp => absurd hp (by simp), fun p _ => ⟨rfl, rfl, by simp⟩, rfl,
      ((flowWhen_nil _).silent _ rfl).silent _ rfl, Or.inr (Or.inl ⟨[], ?_⟩)⟩
    · refine ⟨List.cons_ne_nil _ _, rfl, ?_, rfl, rfl, Nat.zero_le _, Nat.zero_le _, Nat.zero_le _,
        ?_, ?_, ?_⟩
      · intro p hp hle
        exact absurd (Nat.le_trans hp hle) (by simp)
      · intro _
        exact ⟨by decide, rfl⟩
      · intro _ hlt
        exact absurd hlt (Nat.lt_irrefl 0)
      · intro _ e he
        exact absurd he List.not_mem_nil
  · exact absurd hlog hf.started
  · have hans := hf.answered
    have hone := hf.started
    rw [hlog, arrived_nil, List.length_nil] at hans
    omega

/-- A call on a stream is refused or keeps the invariant. -/
theorem good_ask (p : Nat) (c : Call) (k : Point) (hsafe : Safe bounded st.kinds st.log)
    (hinv : Inv bounded s st.kinds (.ask p c :: st.log)) :
    Good bounded (Open.perform subscriptionCheck st (s, .ask p c k)) := by
  rcases Open.perform_ask_cases subscriptionCheck st s p c k with ⟨msg, hfail⟩ | hask
  · rw [hfail]
    exact Or.inr ⟨rfl, hsafe⟩
  · rw [hask]
    exact Or.inl ⟨rfl, hinv⟩

/-- A call on the base stream is refused or keeps the invariant. -/
theorem good_askBase (c : Call) (hbase : ∀ p, s.baseSubscription = some p → p = 0)
    (hsafe : Safe bounded st.kinds st.log) (hinv : Inv bounded s st.kinds (.ask 0 c :: st.log)) :
    Good bounded (Open.perform subscriptionCheck st (s.askBase c)) := by
  unfold askBase
  split
  · exact Or.inr ⟨rfl, hsafe⟩
  · next p hp =>
      have hzero := hbase p hp
      subst hzero
      exact good_ask 0 c .done hsafe hinv

/-- The balance of a bounded subscriber after a request. -/
theorem Counts.request (h : Counts s log) (n : Nat)
    (hfits : demand log - values (received log) + n < kMax) :
    (s.requestBalance.add n).balance = s.requestBalance.balance + n ∧
      s.requestBalance.balance + n < kMax := by
  have hserved := h.served
  have hlt : s.requestBalance.balance + n < kMax := by omega
  exact ⟨RequestBalance.balance_add_of_lt _ _ hlt, hlt⟩

/-- A request of the base: the balance has grown by what was asked for. -/
theorem good_request_idle (h : Inv bounded st.state st.kinds st.log)
    (hf : Idle bounded st.state st.kinds st.log vs) (n : Nat) (hn : 1 ≤ n)
    (hsettled : Settled st)
    (hfits : bounded = true → demand st.log - values (received st.log) + n < kMax) :
    Good bounded (Open.perform subscriptionCheck { st with log := .call (.request n) :: st.log }
      ((component T R).call st.views st.state (.request n))) := by
  -- no continuation has confirmed, so the base owes nothing
  have htok : tokens 0 st.log = vs.length := by
    rcases hsettled with hc | ht
    · rw [hf.cont] at hc
      exact absurd hc (by decide)
    · rw [ht, hf.replaced]
  simp only [component, request, hf.cont]
  have hpos : 1 ≤ st.kinds.length := by simp [hf.kinds]
  refine good_askBase _ h.base (h.safe.silent _ rfl rfl) ⟨h.base, fun p hp =>
    ((h.later p hp).call _).ask (Nat.ne_of_lt (Nat.lt_of_lt_of_le hpos hp)) _,
    by simpa using h.order, (h.strict.silent _ rfl).silent _ rfl, Or.inr (Or.inl ⟨vs, ?_⟩)⟩
  exact
    { started := List.cons_ne_nil _ _
      kinds := hf.kinds
      complete := fun p hp hle => ((hf.complete p hp hle).mono _).mono _
      cont := rfl
      replaced := hf.replaced
      owed := by simp [htok]
      requested := by simp [htok]
      answered := by simpa using hf.answered
      counts := fun hbd => by
        have hadd := (hf.counts hbd).request n (hfits hbd)
        have hserved := (hf.counts hbd).served
        refine ⟨by rw [hadd.1]; exact hadd.2, ?_⟩
        simp [hadd.1]
        omega
      waiting := fun hbd _ => by
        have hadd := (hf.counts hbd).request n (hfits hbd)
        simp only [hadd.1]
        omega
      running := by simpa using hf.running }

/-- Where the two balances agree, a request asks the continuation for exactly
    what was requested. -/
theorem delta_add (s : FlatMapStream) (n : Nat)
    (hal : s.contRequested.balance = s.requestBalance.balance)
    (hlt : s.requestBalance.balance + n < kMax) :
    delta { s with requestBalance := s.requestBalance.add n } = n := by
  have hadd := RequestBalance.balance_add_of_lt s.requestBalance n hlt
  unfold delta
  simp only [hadd, hal]
  unfold kMax at hlt
  omega

/-- A request of the continuation. -/
theorem good_request_busy (h : Inv bounded st.state st.kinds st.log)
    (hf : Busy bounded st.state st.kinds st.log vs) (n : Nat) (hn : 1 ≤ n)
    (hsettled : Settled st)
    (hfits : bounded = true → demand st.log - values (received st.log) + n < kMax) :
    Good bounded (Open.perform subscriptionCheck { st with log := .call (.request n) :: st.log }
      ((component T R).call st.views st.state (.request n))) := by
  -- the base owes an event, so the continuation has confirmed
  have hconf : confirmed vs.length st.log = true := by
    by_contra hno
    rw [Bool.not_eq_true] at hno
    rcases hsettled with hc | ht
    · rw [hf.cont, hno] at hc
      exact absurd hc Bool.false_ne_true
    · have hrep := hf.replaced
      have hreq := hf.requested
      omega
  have hcont : st.state.contSubscription = some vs.length := by rw [hf.cont, hconf, if_pos rfl]
  have hstart := hf.started
  have hdelta (hbd : bounded = true) :
      delta { st.state with requestBalance := st.state.requestBalance.add n } = n :=
    delta_add st.state n (hf.aligned hbd hconf) ((hf.counts hbd).request n (hfits hbd)).2
  have hcounts (hbd : bounded = true) (s : FlatMapStream) (log : FlatMapLog T R)
      (hs : s.requestBalance = st.state.requestBalance.add n)
      (hr : received log = received st.log) (hd : demand log = demand st.log + n) :
      Counts s log := by
    have hadd := (hf.counts hbd).request n (hfits hbd)
    have hserved := (hf.counts hbd).served
    refine ⟨by rw [hs, hadd.1]; exact hadd.2, ?_⟩
    rw [hs, hadd.1, hr, hd]
    omega
  simp only [component, request, hcont]
  split
  · next hpos =>
      refine good_ask _ _ _ (h.safe.silent _ rfl rfl) ⟨h.base, ?_, by simpa using h.order,
        (h.strict.silent _ rfl).silent _ rfl, Or.inr (Or.inr ⟨vs, ?_⟩)⟩
      · intro p hp
        rw [hf.kinds, List.length_cons, List.length_map] at hp
        exact ((h.later p (by simpa [hf.kinds] using hp)).call _).ask (by omega) _
      exact
        { kinds := hf.kinds
          started := hf.started
          complete := fun p hp hle => ((hf.complete p hp hle).mono _).mono _
          cont := by simp [hconf]
          replaced := hf.replaced
          requested := by simpa [show vs.length ≠ 0 by omega] using hf.requested
          answered := by simpa using hf.answered
          unconfirmed := by simp [hconf]
          counts := fun hbd => hcounts hbd _ _ rfl (by simp) (by simp)
          aligned := fun hbd _ => by
            have hadd := (hf.counts hbd).request n (hfits hbd)
            have hal := hf.aligned hbd hconf
            simp only [← hcont]
            rw [hdelta hbd, RequestBalance.balance_add_of_lt _ _ (by omega), hadd.1, hal]
          spent := fun hbd _ hend => by
            have hadd := (hf.counts hbd).request n (hfits hbd)
            have hal := hf.aligned hbd hconf
            have hspent := hf.spent hbd hconf (by simpa using hend)
            simp only [← hcont]
            rw [hdelta hbd, RequestBalance.balance_add_of_lt _ _ (by omega)]
            simp
            omega
          running := by simpa using hf.running }
  -- the balance was saturated, which a bounded run excludes
  · next hzero =>
      have hnot (hbd : bounded = true) : False := by
        simp only [← hcont] at hzero
        rw [hdelta hbd] at hzero
        omega
      refine Or.inl ⟨rfl, h.base, fun p hp => (h.later p hp).call _, by simpa using h.order,
        h.strict.silent _ rfl, Or.inr (Or.inr ⟨vs, ?_⟩)⟩
      exact
        { kinds := hf.kinds
          started := hf.started
          complete := fun p hp hle => (hf.complete p hp hle).mono _
          cont := by simp [hconf]
          replaced := hf.replaced
          requested := by simpa using hf.requested
          answered := by simpa using hf.answered
          unconfirmed := by simp [hconf]
          counts := fun hbd => (hnot hbd).elim
          aligned := fun hbd => (hnot hbd).elim
          spent := fun hbd => (hnot hbd).elim
          running := by simpa using hf.running }

theorem good_request (h : Inv bounded st.state st.kinds st.log) (n : Nat)
    (hok : Rules true bounded st (.call (.request n))) :
    Good bounded (Open.perform subscriptionCheck { st with log := .call (.request n) :: st.log }
      ((component T R).call st.views st.state (.request n))) := by
  rcases hok with ⟨⟨hsub, hn, -⟩, -, hsettled, hfits⟩
  rcases h.stage with ⟨hlog, -, -⟩ | ⟨vs, hf⟩ | ⟨vs, hf⟩
  · rw [hlog, subscribed_nil] at hsub
    exact absurd hsub (by decide)
  · exact good_request_idle h hf n hn (hsettled rfl) hfits
  · exact good_request_busy h hf n hn (hsettled rfl) hfits

theorem good_base_onSubscribe (h : Inv bounded st.state st.kinds st.log)
    (kind : st.kinds[0]? = some none) :
    Good bounded (Open.perform subscriptionCheck
      { st with log := .said 0 none .onSubscribe :: st.log }
      ((component T R).said st.views st.state 0 none .onSubscribe)) := by
  have hne := ne_nil_of_kind kind
  refine Or.inl ⟨rfl, ?_⟩
  have hsaid := h.quiet quiet_base_onSubscribe hne h.base rfl rfl rfl
  exact hsaid.quiet quiet_out_onSubscribe hne (fun p hp => (Option.some.inj hp).symm) rfl rfl rfl

/-- A value of the base starts the next continuation. -/
theorem good_base_value (h : Inv bounded st.state st.kinds st.log)
    (hf : Idle bounded st.state st.kinds st.log vs) (v : T)
    (hstrict : Strict (tokens 0 st.log) (arrived 0 st.log ++ [.ok])) :
    Good bounded (Open.perform subscriptionCheck
      { st with log := .said 0 none (.onNext (.value v)) :: st.log }
      ((component T R).said st.views st.state 0 none (.onNext (.value v)))) := by
  rw [strict_append] at hstrict
  rcases hstrict with ⟨hlt, hok⟩
  have hlen : st.kinds.length = vs.length + 1 := by
    rw [hf.kinds, List.length_cons, List.length_map]
  have hnew := h.later st.kinds.length (Nat.le_refl _)
  have hreq := hf.requested
  have hans := hf.answered
  have hrep := hf.replaced
  simp only [component, onNext, hf.cont, Option.isSome_none, Bool.false_eq_true, if_false,
    Open.perform_make]
  refine Or.inl ⟨rfl, h.base, ?_, by simpa using h.order,
    (h.strict.silent _ rfl).silent _ rfl, Or.inr (Or.inr ⟨vs ++ [v], ?_⟩)⟩
  · intro p hp
    rw [List.length_append, List.length_singleton] at hp
    exact ((h.later p (by omega)).said (by omega) _ _).ask (by omega) _
  -- the new continuation stands at the end of the list, and nothing has reached it
  · have hun : Untouched (vs ++ [v]).length
        (.ask st.kinds.length .subscribe :: .said 0 none (.onNext (.value v)) :: st.log) := by
      rw [List.length_append, List.length_singleton, ← hlen]
      exact (hnew.said (by omega) _ _).cons _ rfl rfl (by simp)
    exact
      { kinds := by simp [hf.kinds]
        started := by simp
        complete := fun p hp hle => by
          rw [List.length_append, List.length_singleton] at hle
          exact ((hf.complete p hp (by omega)).mono _).mono _
        cont := by rw [hun.confirmed]; exact hf.cont
        replaced := by simp [hrep]
        requested := by
          simp
          omega
        answered := by simpa using hans
        unconfirmed := fun _ => hun
        counts := fun hbd => ⟨(hf.counts hbd).fits, by simpa using (hf.counts hbd).served⟩
        aligned := fun _ hc => by rw [hun.confirmed] at hc; exact absurd hc (by decide)
        spent := fun _ hc => by rw [hun.confirmed] at hc; exact absurd hc (by decide)
        running := fun _ => by
          simpa using hf.running ((ended_eq_false _).mpr hok) }

/-- The end of the base is passed on: its token was requested for demand that
    is still there. -/
theorem good_base_end (h : Inv bounded st.state st.kinds st.log)
    (hf : Idle bounded st.state st.kinds st.log vs) (e : Status) (he : e.code ≠ .ok)
    (hstrict : Strict (tokens 0 st.log) (arrived 0 st.log ++ [e.code])) :
    Good bounded (Open.perform subscriptionCheck
      { st with log := .said 0 none (.onNext (.status e he)) :: st.log }
      ((component T R).said st.views st.state 0 none (.onNext (.status e he)))) := by
  rw [strict_append] at hstrict
  rcases hstrict with ⟨hlt, hok⟩
  have hpos : 1 ≤ st.kinds.length := by simp [hf.kinds]
  have hreq := hf.requested
  have hans := hf.answered
  have hrun := (ended_eq_false _).mpr hok
  simp only [component, onNext, send, Open.perform_out]
  refine Or.inl ⟨rfl, h.base, ?_, by simpa using h.order, ?_, Or.inr (Or.inl ⟨vs, ?_⟩)⟩
  · intro p hp
    exact ((h.later p hp).said (Nat.ne_of_lt (Nat.lt_of_lt_of_le hpos hp)) _ _).out _
  -- the token of the base came from a demand that no continuation has used up
  · refine flowWhen_onNext _ _ (fun hbd => ?_) (by simpa using hf.running hrun)
    have hvals := values_eq_length _ (hf.running hrun)
    have hserved := (hf.counts hbd).served
    have hwait := hf.waiting hbd hlt
    simp
    omega
  · exact
      { started := List.cons_ne_nil _ _
        kinds := hf.kinds
        complete := fun p hp hle => ((hf.complete p hp hle).mono _).mono _
        cont := hf.cont
        replaced := by simpa using hf.replaced
        owed := by simpa using hf.owed
        requested := by simpa using hf.requested
        answered := by
          simp
          omega
        counts := fun hbd => ⟨(hf.counts hbd).fits, by simpa using (hf.counts hbd).served⟩
        waiting := fun _ hw => by
          simp at hw
          omega
        running := fun hend => by simp [StatusOr.code, he] at hend }

/-- A continuation that confirms its subscription is asked for the demand
    there is. -/
theorem good_cont_onSubscribe (h : Inv bounded st.state st.kinds st.log) (x : T)
    (hf : Busy bounded st.state st.kinds st.log vs)
    (hconf : confirmed vs.length st.log = false) :
    Good bounded (Open.perform subscriptionCheck
      { st with log := .said vs.length (some x) .onSubscribe :: st.log }
      ((component T R).said st.views st.state vs.length (some x) .onSubscribe)) := by
  have hun := hf.unconfirmed hconf
  have hstart := hf.started
  have hlen : st.kinds.length = vs.length + 1 := by
    rw [hf.kinds, List.length_cons, List.length_map]
  have hbal := st.state.requestBalance.le_kMax
  simp only [component, onSubscribeCont]
  split
  · exact Or.inr ⟨rfl, h.safe.silent _ rfl rfl⟩
  -- adding nothing saturates nothing
  · have hadd : st.state.requestBalance.add 0 = st.state.requestBalance := by
      refine RequestBalance.ext _ _ ?_
      rw [RequestBalance.balance_add]
      omega
    split
    -- the demand is still there, and all of it goes to the continuation
    · next hpos =>
        rw [RequestBalance.hasRequests_iff] at hpos
        have hdelta : delta { st.state with
            contSubscription := some vs.length, contRequested := .zero } =
              st.state.requestBalance.balance := by
          simp only [delta, RequestBalance.balance_zero]
          unfold kMax at hbal
          omega
        have hreq : (RequestBalance.zero.add st.state.requestBalance.balance).balance =
            st.state.requestBalance.balance := by
          rw [RequestBalance.balance_add, RequestBalance.balance_zero]
          omega
        simp only [request, hadd, hdelta, hpos, if_true]
        refine good_ask _ _ _ (h.safe.silent _ rfl rfl) ⟨h.base, ?_, by simpa using h.order,
          (h.strict.silent _ rfl).silent _ rfl, Or.inr (Or.inr ⟨vs, ?_⟩)⟩
        · intro p hp
          have hp' : st.kinds.length ≤ p := hp
          exact ((h.later p hp).said (by omega) _ _).ask (by omega) _
        · exact
            { kinds := hf.kinds
              started := hf.started
              complete := fun p hp hle => ((hf.complete p hp hle).mono _).mono _
              cont := by simp
              replaced := by simpa using hf.replaced
              requested := by simpa [show vs.length ≠ 0 by omega] using hf.requested
              answered := by simpa using hf.answered
              unconfirmed := by simp
              counts := fun hbd => ⟨(hf.counts hbd).fits, by simpa using (hf.counts hbd).served⟩
              aligned := fun _ _ => hreq
              spent := fun _ _ _ => by simp [hreq, hun.arrived, hun.tokens]
              running := fun _ => by
                simpa using hf.running (by rw [hun.arrived, ended_nil]) }
    · next hpos =>
        rw [RequestBalance.hasRequests_iff] at hpos
        simp only [Open.perform_ret]
        refine Or.inl ⟨rfl, h.base, ?_, by simpa using h.order,
          h.strict.silent _ rfl, Or.inr (Or.inr ⟨vs, ?_⟩)⟩
        · intro p hp
          have hp' : st.kinds.length ≤ p := hp
          exact (h.later p hp).said (by omega) _ _
        · exact
            { kinds := hf.kinds
              started := hf.started
              complete := fun p hp hle => (hf.complete p hp hle).mono _
              cont := by simp
              replaced := by simpa using hf.replaced
              requested := by simpa using hf.requested
              answered := by simpa using hf.answered
              unconfirmed := by simp
              counts := fun hbd => ⟨(hf.counts hbd).fits, by simpa using (hf.counts hbd).served⟩
              aligned := fun _ _ => by
                simp
                omega
              spent := fun _ _ _ => by simp [hun.arrived, hun.tokens]
              running := fun _ => by
                simpa using hf.running (by rw [hun.arrived, ended_nil]) }

/-- A value of the continuation is delivered and counted in both balances. -/
theorem good_cont_value (h : Inv bounded st.state st.kinds st.log) (x : T) (v : R)
    (hf : Busy bounded st.state st.kinds st.log vs)
    (hconf : confirmed vs.length st.log = true)
    (hstrict : Strict (tokens vs.length st.log) (arrived vs.length st.log ++ [.ok])) :
    Good bounded (Open.perform subscriptionCheck
      { st with log := .said vs.length (some x) (.onNext (.value v)) :: st.log }
      ((component T R).said st.views st.state vs.length (some x) (.onNext (.value v)))) := by
  rw [strict_append] at hstrict
  rcases hstrict with ⟨hlt, hok⟩
  have hend := (ended_eq_false _).mpr hok
  have hstart := hf.started
  have hlen : st.kinds.length = vs.length + 1 := by
    rw [hf.kinds, List.length_cons, List.length_map]
  simp only [component, onNextCont]
  split
  · exact Or.inr ⟨rfl, h.safe.silent _ rfl rfl⟩
  · simp only [StatusOr.isEnd_value, Bool.not_false, if_true]
    cases hb : st.state.requestBalance.remove 1 with
    | none => exact Or.inr ⟨rfl, h.safe.silent _ rfl rfl⟩
    | some b =>
        cases hc : st.state.contRequested.remove 1 with
        | none => exact Or.inr ⟨rfl, h.safe.silent _ rfl rfl⟩
        | some c =>
            have hsub (hbd : bounded = true) :=
              RequestBalance.remove_of_lt _ _ _ (hf.counts hbd).fits hb
            have hsub' (hbd : bounded = true) :=
              RequestBalance.remove_of_lt _ _ _
                (by rw [hf.aligned hbd hconf]; exact (hf.counts hbd).fits) hc
            simp only [send, Open.perform_out]
            refine Or.inl ⟨rfl, h.base, ?_, by simpa [StatusOr.isDone_value] using h.order, ?_,
              Or.inr (Or.inr ⟨vs, ?_⟩)⟩
            · intro p hp
              have hp' : st.kinds.length ≤ p := hp
              exact ((h.later p hp).said (by omega) _ _).out _
            · refine flowWhen_onNext _ _ (fun hbd => ?_) (by simpa using hf.running hend)
              have hvals := values_eq_length _ (hf.running hend)
              have hserved := (hf.counts hbd).served
              have hdiff := hsub hbd
              simp
              omega
            · exact
                { kinds := hf.kinds
                  started := hf.started
                  complete := fun p hp hle => ((hf.complete p hp hle).mono _).mono _
                  cont := by simpa using hf.cont
                  replaced := by simpa using hf.replaced
                  requested := by simpa using hf.requested
                  answered := by simpa [show vs.length ≠ 0 by omega] using hf.answered
                  unconfirmed := by simp [hconf]
                  counts := fun hbd => by
                    have hserved := (hf.counts hbd).served
                    have hdiff := hsub hbd
                    refine ⟨?_, ?_⟩
                    · have hfits := (hf.counts hbd).fits
                      simp only
                      omega
                    · simp
                      omega
                  aligned := fun hbd _ => by
                    have hal := hf.aligned hbd hconf
                    have hdiff := hsub hbd
                    have hdiff' := hsub' hbd
                    simp only
                    omega
                  spent := fun hbd _ _ => by
                    have hspent := hf.spent hbd hconf hend
                    have hdiff' := hsub' hbd
                    simp
                    omega
                  running := fun _ => by
                    simpa [or_imp, forall_and] using hf.running hend }

/-- A `Done` of the continuation replaces the base element, and makes room for
    the next one. -/
theorem good_cont_done (h : Inv bounded st.state st.kinds st.log) (x : T) (e : StatusOr R)
    (hf : Busy bounded st.state st.kinds st.log vs)
    (hconf : confirmed vs.length st.log = true)
    (hstrict : Strict (tokens vs.length st.log) (arrived vs.length st.log ++ [e.code]))
    (hdone : e.isDone = true) (hisEnd : e.isEnd = true) :
    Good bounded (Open.perform subscriptionCheck
      { st with log := .said vs.length (some x) (.onNext e) :: st.log }
      ((component T R).said st.views st.state vs.length (some x) (.onNext e))) := by
  rw [strict_append] at hstrict
  rcases hstrict with ⟨hlt, hok⟩
  have hend := (ended_eq_false _).mpr hok
  have hstart := hf.started
  have hlen : st.kinds.length = vs.length + 1 := by
    rw [hf.kinds, List.length_cons, List.length_map]
  have hbal := st.state.requestBalance.le_kMax
  have hadd : st.state.requestBalance.add 0 = st.state.requestBalance := by
    refine RequestBalance.ext _ _ ?_
    rw [RequestBalance.balance_add]
    omega
  -- the continuations before it were complete, and it is now
  have hcomplete (log : FlatMapLog T R) (hmono : ∀ p, Complete p st.log → Complete p log)
      (hlast : Complete vs.length log) (p : Nat) (hp : 1 ≤ p) (hle : p ≤ vs.length) :
      Complete p log := by
    rcases Nat.lt_or_eq_of_le hle with hlt | rfl
    · exact hmono p (hf.complete p hp hlt)
    · exact hlast
  have hnow : Complete vs.length
      (.said vs.length (some x) (.onNext e) :: st.log : FlatMapLog T R) := by
    refine ⟨by rw [confirmed_cons, hconf, Bool.or_true], ?_⟩
    rw [arrived_cons, ended_append]
    simp [StatusOr.isEnd] at hisEnd
    simp [hisEnd]
  simp only [component, onNextCont, hisEnd, hdone, Bool.not_true, Bool.false_eq_true, if_false,
    if_true]
  split
  · exact Or.inr ⟨rfl, h.safe.silent _ rfl rfl⟩
  · split
    -- there is demand left, so the base is asked for the next element
    · next hpos =>
        rw [RequestBalance.hasRequests_iff] at hpos
        simp only [request, hadd]
        refine good_askBase _ h.base (h.safe.silent _ rfl rfl) ⟨h.base, ?_,
          by simpa [hdone] using h.order, (h.strict.silent _ rfl).silent _ rfl,
          Or.inr (Or.inl ⟨vs, ?_⟩)⟩
        · intro p hp
          have hp' : st.kinds.length ≤ p := hp
          exact ((h.later p hp).said (by omega) _ _).ask (by omega) _
        · exact
            { started := List.cons_ne_nil _ _
              kinds := hf.kinds
              complete := hcomplete _ (fun p hp => (hp.mono _).mono _) (hnow.mono _)
              cont := rfl
              replaced := by simpa [hdone] using hf.replaced
              owed := by simp [hf.requested]
              requested := by simpa using Nat.le_of_eq hf.requested
              answered := by simpa [show vs.length ≠ 0 by omega] using hf.answered
              counts := fun hbd => ⟨(hf.counts hbd).fits, by simpa using (hf.counts hbd).served⟩
              waiting := fun _ _ => hpos
              running := fun _ => by simpa using hf.running hend }
    · simp only [Open.perform_ret]
      refine Or.inl ⟨rfl, h.base, ?_, by simpa [hdone] using h.order,
        h.strict.silent _ rfl, Or.inr (Or.inl ⟨vs, ?_⟩)⟩
      · intro p hp
        have hp' : st.kinds.length ≤ p := hp
        exact (h.later p hp).said (by omega) _ _
      · exact
          { started := List.cons_ne_nil _ _
            kinds := hf.kinds
            complete := hcomplete _ (fun p hp => hp.mono _) hnow
            cont := rfl
            replaced := by simpa [hdone] using hf.replaced
            owed := by simp [hf.requested]
            requested := by simpa using Nat.le_succ_of_le (Nat.le_of_eq hf.requested)
            answered := by simpa [show vs.length ≠ 0 by omega] using hf.answered
            counts := fun hbd => ⟨(hf.counts hbd).fits, by simpa using (hf.counts hbd).served⟩
            waiting := fun _ hw => by
              have hreq := hf.requested
              have hans := hf.answered
              simp [show vs.length ≠ 0 by omega] at hw
              omega
            running := fun _ => by simpa using hf.running hend }

/-- An error of the continuation is passed on as the last event. -/
theorem good_cont_error (h : Inv bounded st.state st.kinds st.log) (x : T) (e : StatusOr R)
    (hf : Busy bounded st.state st.kinds st.log vs)
    (hconf : confirmed vs.length st.log = true)
    (hstrict : Strict (tokens vs.length st.log) (arrived vs.length st.log ++ [e.code]))
    (hdone : e.isDone = false) (hisEnd : e.isEnd = true) :
    Good bounded (Open.perform subscriptionCheck
      { st with log := .said vs.length (some x) (.onNext e) :: st.log }
      ((component T R).said st.views st.state vs.length (some x) (.onNext e))) := by
  rw [strict_append] at hstrict
  rcases hstrict with ⟨hlt, hok⟩
  have hend := (ended_eq_false _).mpr hok
  have hstart := hf.started
  have hlen : st.kinds.length = vs.length + 1 := by
    rw [hf.kinds, List.length_cons, List.length_map]
  have hcode : (e.code != .ok) = true := hisEnd
  simp only [component, onNextCont, hisEnd, hdone, Bool.not_true, Bool.false_eq_true, if_false]
  split
  · exact Or.inr ⟨rfl, h.safe.silent _ rfl rfl⟩
  · simp only [send, Open.perform_out]
    refine Or.inl ⟨rfl, h.base, ?_, by simpa [hdone] using h.order, ?_, Or.inr (Or.inr ⟨vs, ?_⟩)⟩
    · intro p hp
      have hp' : st.kinds.length ≤ p := hp
      exact ((h.later p hp).said (by omega) _ _).out _
    -- the balances agree, so the demand of the continuation is demand of the stream
    · refine flowWhen_onNext _ _ (fun hbd => ?_) (by simpa using hf.running hend)
      have hvals := values_eq_length _ (hf.running hend)
      have hserved := (hf.counts hbd).served
      have hspent := hf.spent hbd hconf hend
      have hal := hf.aligned hbd hconf
      simp
      omega
    · exact
        { kinds := hf.kinds
          started := hf.started
          complete := fun p hp hle => ((hf.complete p hp hle).mono _).mono _
          cont := by simpa using hf.cont
          replaced := by simpa [hdone] using hf.replaced
          requested := by simpa using hf.requested
          answered := by simpa [show vs.length ≠ 0 by omega] using hf.answered
          unconfirmed := by simp [hconf]
          counts := fun hbd => ⟨(hf.counts hbd).fits, by
            simpa [hisEnd] using (hf.counts hbd).served⟩
          aligned := fun hbd _ => hf.aligned hbd hconf
          spent := fun _ _ hno => by simp [hcode] at hno
          running := fun hno => by simp [hcode] at hno }

/-- A call of a base stream. -/
theorem good_base (h : Inv bounded st.state st.kinds st.log) (p : Nat) (o : Signal T)
    (kind : st.kinds[p]? = some none) (hok : Protocol.stream p st.log o) :
    Good bounded (Open.perform subscriptionCheck { st with log := .said p none o :: st.log }
      ((component T R).said st.views st.state p none o)) := by
  have hp := h.base_part p kind
  subst hp
  have hne := ne_nil_of_kind kind
  cases o with
  | onSubscribe => exact good_base_onSubscribe h kind
  | onNext e =>
      rcases hok with ⟨-, -, hstrict⟩
      -- the base has something to say only while no continuation runs
      rcases h.stage with ⟨-, hkinds, -⟩ | ⟨vs, hf⟩ | ⟨vs, hf⟩
      · exact absurd hkinds hne
      · cases e with
        | value v => exact good_base_value h hf v hstrict
        | status e he => exact good_base_end h hf e he hstrict
      · exact absurd hstrict (hf.base_silent _)
  | destroy =>
      have hsaid := h.quiet (quiet_destroy 0 none) hne h.base rfl rfl rfl
      have hdead : Inv bounded { st.state with hasEnded := true } st.kinds
          (.out .destroy :: .said 0 none .destroy :: st.log) :=
        hsaid.quiet quiet_out_destroy hne h.base rfl rfl rfl
      simp only [component, destructor]
      split
      · split
        · exact Or.inl ⟨rfl, hdead⟩
        · exact good_ask _ _ _ hsaid.safe
            (hsaid.quiet (quiet_cancel _) hne h.base rfl rfl rfl)
      · exact Or.inl ⟨rfl, hdead⟩

/-- A call of a continuation: only the last one still has something to say. -/
theorem good_cont (h : Inv bounded st.state st.kinds st.log) (p : Nat) (x : T) (o : Signal R)
    (kind : st.kinds[p]? = some (some x)) (hok : Protocol.stream p st.log o) :
    Good bounded (Open.perform subscriptionCheck { st with log := .said p (some x) o :: st.log }
      ((component T R).said st.views st.state p (some x) o)) := by
  rcases h.cont_part p x kind with ⟨hp, hlt⟩
  have hne := ne_nil_of_kind kind
  cases o with
  | onSubscribe =>
      rcases hok with ⟨hconf, -⟩
      rcases h.stage with ⟨-, hkinds, -⟩ | ⟨vs, hf⟩ | ⟨vs, hf⟩
      · exact absurd hkinds hne
      · rw [hf.kinds, List.length_cons, List.length_map] at hlt
        rw [(hf.complete p hp (by omega)).confirmed] at hconf
        exact absurd hconf (by decide)
      · rw [hf.kinds, List.length_cons, List.length_map] at hlt
        -- an earlier continuation has ended, and says nothing more
        rcases Nat.lt_or_eq_of_le (Nat.le_of_lt_succ hlt) with hbefore | rfl
        · rw [(hf.complete p hp hbefore).confirmed] at hconf
          exact absurd hconf (by decide)
        · exact good_cont_onSubscribe h x hf hconf
  | onNext e =>
      rcases hok with ⟨hconf, -, hstrict⟩
      rcases h.stage with ⟨-, hkinds, -⟩ | ⟨vs, hf⟩ | ⟨vs, hf⟩
      · exact absurd hkinds hne
      · rw [hf.kinds, List.length_cons, List.length_map] at hlt
        exact absurd hstrict ((hf.complete p hp (by omega)).not_strict _ _)
      · rw [hf.kinds, List.length_cons, List.length_map] at hlt
        rcases Nat.lt_or_eq_of_le (Nat.le_of_lt_succ hlt) with hbefore | rfl
        · exact absurd hstrict ((hf.complete p hp hbefore).not_strict _ _)
        · cases e with
          | value v => exact good_cont_value h x v hf hconf hstrict
          | status e he =>
              cases hd : (StatusOr.status e he : StatusOr R).isDone with
              | true => exact good_cont_done h x _ hf hconf hstrict hd (by simp)
              | false => exact good_cont_error h x _ hf hconf hstrict hd (by simp)
  | destroy =>
      exact Or.inl ⟨rfl, h.quiet (quiet_destroy p (some x)) hne h.base rfl rfl rfl⟩

theorem good_reply (h : Inv bounded st.state st.kinds st.log) (hne : st.kinds ≠ []) (k : Point)
    (rest : List (Callee × Point)) :
    Good bounded (Open.perform subscriptionCheck { st with stack := rest }
      ((component T R).resume st.views st.state k)) := by
  cases k with
  | done => exact Or.inl ⟨rfl, h⟩
  | terminate =>
      simp only [component]
      split
      · exact Or.inr ⟨rfl, h.safe⟩
      · exact good_askBase _ h.base h.safe (h.quiet (quiet_cancel 0) hne h.base rfl rfl rfl)
  | destroying => exact Or.inl ⟨rfl, h.quiet quiet_out_destroy hne h.base rfl rfl rfl⟩

theorem good_step (st st' : Open (component T R))
    (hreach : Open.Reach subscriptionCheck (Rules true bounded) st) (h : Good bounded st)
    (hstep : Open.Step subscriptionCheck (Rules true bounded) st st') : Good bounded st' := by
  rcases h with ⟨hturn, h⟩ | ⟨hfailed, -⟩
  · cases hstep with
    | call c _ _ ok =>
        cases c with
        | subscribe => exact good_subscribe h (List.isEmpty_iff.mp ok.1)
        | request n => exact good_request h n ok
        | cancel => exact absurd rfl ok.2.1
    | said p i o _ kind ok =>
        cases i with
        | none => exact good_base h p o kind ok
        | some x => exact good_cont h p x o kind ok
    | reply who k rest _ top ok =>
        refine good_reply h (h.kinds_ne_nil fun hnil => ?_) k rest
        rw [(hreach.idle st hnil).1] at top
        exact absurd top (List.cons_ne_nil _ _).symm
    | view p v _ ok => exact Or.inl ⟨hturn, h⟩
    | run k turn _ => exact absurd (hturn.symm.trans turn) (by simp)
  · cases hstep with
    | call c turn _ _ => exact absurd hfailed (by simp [turn])
    | said p i o turn _ _ => exact absurd hfailed (by simp [turn])
    | reply who k rest turn _ _ => exact absurd hfailed (by simp [turn])
    | view p v turn _ => exact absurd hfailed (by simp [turn])
    | run k turn _ => exact absurd hfailed (by simp [turn])

theorem good_reach (st : Open (component T R))
    (h : Open.Reach subscriptionCheck (Rules true bounded) st) : Good bounded st :=
  Open.Reach.induct (Good bounded) (good_init bounded) good_step st h

theorem Good.safe (h : Good bounded st) : Safe bounded st.kinds st.log := by
  rcases h with ⟨-, hinv⟩ | ⟨-, hsafe⟩
  · exact hinv.safe
  · exact hsafe

/-- A run in which the demand was never infinite is one of a bounded
    subscriber. -/
theorem bounded_of_limited (st : Open (component T R))
    (h : Open.Reach subscriptionCheck (Rules true false) st) (hno : unlimited st.log = false) :
    Open.Reach subscriptionCheck (Rules true true) st := by
  induction h with
  | init => exact .init
  | step st st' _ next ih =>
      refine .step st st' (ih (unlimited_of_suffix next.log_suffix hno)) ?_
      cases next with
      | call c turn open_ ok =>
          refine .call st c turn open_ ⟨ok.1, ok.2.1, ok.2.2.1, fun _ => ?_⟩
          have hcall : unlimited (.call c :: st.log) = false :=
            unlimited_of_suffix (Open.perform_log_suffix subscriptionCheck
              { st with log := .call c :: st.log } _) hno
          rw [unlimited_cons, Bool.or_eq_false_iff, decide_eq_false_iff_not] at hcall
          exact Nat.lt_of_not_le hcall.2
      | said p i o turn kind ok => exact .said st p i o turn kind ok
      | reply who k rest turn top ok => exact .reply st who k rest turn top ok
      | view p v turn ok => exact .view st p v turn ok
      | run k turn ok => exact .run st k turn ok

/-- Next to a careful subscriber the flow control is strict as far as balances
    go. -/
theorem limited (st : Open (component T R))
    (h : Open.Reach subscriptionCheck (Rules true false) st) : LimitedFlow st.log := by
  refine ⟨fun hno => ?_, (good_reach st h).safe.strict.orderly⟩
  exact (good_reach st (bounded_of_limited st h hno)).safe.strict.paid rfl

/-- A continuation that has been subscribed and has not ended. -/
def Active (st : Open (component T R)) (p : Nat) : Prop :=
  1 ≤ p ∧ p < st.kinds.length ∧ ended (arrived p st.log) = false

/-- In every run in which each request comes while a continuation has
    confirmed its subscription or the base owes nothing, at most one base
    element is under way, at most one continuation is active, no value of the
    base meets a continuation, and what a continuation delivers comes before
    anything of the next one. -/
theorem one_base_element (st : Open (component T R))
    (h : Open.Reach subscriptionCheck (Rules true false) st) :
    tokens 0 st.log ≤ replaced st.log + 1 ∧
      (∀ p q, Active st p → Active st q → p = q) ∧
      (∀ v : T, st.turn = .outside → Protocol.stream 0 st.log (.onNext (.value v)) →
        st.state.contSubscription = none) ∧
      (∀ p, 1 ≤ p → p + 1 < st.kinds.length → ended (arrived p st.log) = true) ∧
      (st.turn = .outside → received st.log = forwarded st.log) := by
  have hgood := good_reach st h
  have hordered := hgood.safe.ordered
  refine ⟨hgood.safe.base, ?_, ?_, hordered, ?_⟩
  · rintro p q ⟨hp, hplt, hpend⟩ ⟨hq, hqlt, hqend⟩
    -- of two active continuations the earlier one would have ended
    rcases Nat.lt_trichotomy p q with hlt | heq | hgt
    · rw [hordered p hp (by omega)] at hpend
      exact absurd hpend (by decide)
    · exact heq
    · rw [hordered q hq (by omega)] at hqend
      exact absurd hqend (by decide)
  · rintro v hturn ⟨hconf, -, hstrict⟩
    rcases hgood with ⟨-, hinv⟩ | ⟨hfailed, -⟩
    · rcases hinv.stage with ⟨hlog, -, -⟩ | ⟨vs, hf⟩ | ⟨vs, hf⟩
      · rw [hlog, confirmed_nil] at hconf
        exact absurd hconf (by decide)
      · exact hf.cont
      · exact absurd hstrict (hf.base_silent _)
    · rw [hturn] at hfailed
      exact absurd hfailed Bool.false_ne_true
  · intro hturn
    rcases hgood with ⟨-, hinv⟩ | ⟨hfailed, -⟩
    · exact hinv.order
    · rw [hturn] at hfailed
      exact absurd hfailed Bool.false_ne_true

/-- One token, one value, and a continuation with two values of its own. -/
def carefulMoves : List (Move Call Bool (Option Nat)
    (fun i => Signal (Published Nat Nat i))) :=
  [ .call .subscribe, .said 0 none .onSubscribe, .call (.request 1),
    .reply, .reply, .reply, .said 0 none (.onNext (.value 7)),
    .said 1 (some 7) .onSubscribe, .reply, .reply,
    .said 1 (some 7) (.onNext (.value 8)), .call (.request 1), .reply,
    .reply, .said 1 (some 7) (.onNext .done) ]

theorem one_base_element_two_tokens : ∃ st : Open (component Nat Nat),
    Open.Reach subscriptionCheck (Rules true false) st ∧ received st.log = [.value 8] ∧
      tokens 0 st.log = 2 ∧ tokens 0 st.log ≤ replaced st.log + 1 := by
  rcases Open.exists_reach_of_play subscriptionCheck (Rules true false) carefulMoves
    (fun st => received st.log == [.value 8] && tokens 0 st.log == 2)
    (by decide +kernel) with ⟨st, hst, htest⟩
  rw [Bool.and_eq_true, beq_iff_eq, beq_iff_eq] at htest
  exact ⟨st, hst, htest.1, htest.2, (one_base_element st hst).1⟩

/-- Two requests before the base has answered. Its second value comes while
    the continuation of the first is running. -/
def hastyMoves : List (Move Call Bool (Option Nat)
    (fun i => Signal (Published Nat Nat i))) :=
  [ .call .subscribe, .said 0 none .onSubscribe, .call (.request 1),
    .reply, .call (.request 1), .reply, .reply, .reply,
    .said 0 none (.onNext (.value 7)), .said 1 (some 7) .onSubscribe,
    .reply, .reply, .said 0 none (.onNext (.value 9)) ]

/-- Without care two base elements are under way, and the check for a flow
    control error strikes. -/
theorem two_base_elements : ∃ st : Open (component Nat Nat),
    Open.Reach subscriptionCheck (Rules false false) st ∧ tokens 0 st.log = 2 ∧
      replaced st.log = 0 ∧ received st.log = [.status flowControlError (by decide)] := by
  rcases Open.exists_reach_of_play subscriptionCheck (Rules false false) hastyMoves
    (fun st => tokens 0 st.log == 2 && replaced st.log == 0 &&
      received st.log == [.status flowControlError (by decide)])
    (by decide +kernel) with ⟨st, hst, htest⟩
  rw [Bool.and_eq_true, Bool.and_eq_true, beq_iff_eq, beq_iff_eq, beq_iff_eq] at htest
  exact ⟨st, hst, htest.1.1, htest.1.2, htest.2⟩

/-- The condition on requests is exact: a request that comes without room,
    while the base is there to take it, puts two base elements under way. -/
theorem request_overruns (st : Open (component T R))
    (h : Open.Reach subscriptionCheck (Rules true false) st) (hturn : st.turn = .outside)
    (n : Nat) (hroom : ¬ Settled st) (hbase : st.state.baseSubscription = some 0)
    (hview : st.views 0 = false) :
    let next := Open.perform subscriptionCheck { st with log := .call (.request n) :: st.log }
      ((component T R).call st.views st.state (.request n))
    tokens 0 next.log = replaced next.log + 2 := by
  have hcont : st.state.contSubscription = none := by
    cases hc : st.state.contSubscription with
    | none => rfl
    | some p => exact absurd (Or.inl (by rw [hc]; rfl)) hroom
  have htok : tokens 0 st.log = replaced st.log + 1 := by
    rcases good_reach st h with ⟨-, hinv⟩ | ⟨hfailed, -⟩
    · rcases hinv.stage with ⟨hlog, -, -⟩ | ⟨vs, hf⟩ | ⟨vs, hf⟩
      · exact absurd (Or.inr (by rw [hlog]; rfl)) hroom
      · have hne : tokens 0 st.log ≠ replaced st.log := fun heq => hroom (Or.inr heq)
        have howed := hf.owed
        have hreq := hf.requested
        have hrep := hf.replaced
        omega
      · rw [hf.requested, hf.replaced]
    · rw [hturn] at hfailed
      exact absurd hfailed Bool.false_ne_true
  simp only [component, request, hcont, askBase, hbase]
  rw [Open.perform_ask _ _ _ _ _ _ (by simp only [hview, subscriptionCheck_false])]
  simp [htok]

end FlatMapStream

end RxCppUniq
