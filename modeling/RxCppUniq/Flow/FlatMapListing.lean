import RxCppUniq.Reactive.FlatMap
import RxCppUniq.Reactive.Listing

/-!
# FlatMap Flattens

`FlatMap` over a base stream and continuations of which each stands for a
listing stands for the flattened listing.

The loops of the base and of the current continuation are nested in each
other, and in the call of the environment by which they were started. Which of
them are running is told from the stack, and the loop that is innermost
decides what is done next: it makes a value, or it ends and the loop below
goes on. By induction on the values the base has left the whole then does what
the flattened listing does.

## Main definitions

* `FlatMapStream.closed`: `FlatMap` with the streams it subscribes to.
* `FlatMapStream.Tracks`: The whole has got as far as the flattened listing.
* `FlatMapStream.ContTurn`, `FlatMapStream.BaseTurn`: The loop of the current
  continuation, or of the base, goes on.
* `FlatMapStream.Dead`: The stream is destroyed, and all calls return.

## Theorems

* `FlatMapStream.unwind`: How they return.
* `FlatMapStream.ContTurn.goes`: What the loop of a continuation leads to.
* `FlatMapStream.base_loop`: What the loop of the base leads to.
* `FlatMapStream.simulation`: `FlatMap` stands for the flattened listing.
-/

namespace RxCppUniq

open Theory Theory.Machine Theory.Nest

open GeneratingStream (NoParts)

namespace FlatMapStream

/-- The machines of the base stream and of the continuations. -/
abbrev Machines (T R : Type) :=
  (i : Option T) → Machine Call (Signal (Published T R i)) Bool (fun i => Signal (NoParts i))

variable {T R : Type} {N : Machines T R}

/-- `FlatMap` with the streams it subscribes to. -/
abbrev closed (N : Machines T R) : Operator R Empty NoParts :=
  nest subscriptionCheck (component T R) N

abbrev St (N : Machines T R) := Nest.State (component T R) N

section Stacks

/-- What is on the stack while the subscriber handles `OnSubscribe`. -/
def bottom (sub : Bool) : List (Frame Point) :=
  if sub then [.own .done, .part 0, .own .done, .env] else []

def bottomPoints (sub : Bool) : List GeneratingStream.Point :=
  if sub then [.done] else []

def bottomReplies (sub : Bool) :
    List (Nest.Point Call (Option T) Point (fun i => Signal (Published T R i)) ×
      GeneratingStream.Point) :=
  if sub then [(.reply, .done)] else []

/-- A continuation that has made its last event, upon which the base was
    called. -/
def older : Option Nat → List (Frame Point)
  | none => []
  | some p => [.part p, .own .done]

/-- What is on the stack while the loop of the base is running. -/
def baseStack (old : Option Nat) (sub : Bool) : List (Frame Point) :=
  .own .done :: older old ++ .env :: bottom sub

/-- What is on the stack while the loop of the continuation `p` is running,
    which is called from the loop of the base or from outside. -/
def contStack (p : Nat) : Option (Option Nat) → Bool → List (Frame Point)
  | none, sub => .own .done :: .env :: bottom sub
  | some old, sub => .own .done :: .part p :: .own .done :: .part 0 :: baseStack old sub

def basePoints (inside : Option (Option Nat)) (sub : Bool) : List GeneratingStream.Point :=
  if inside.isSome then .sent false :: bottomPoints sub else bottomPoints sub

def contPoints (inside : Option (Option Nat)) : List GeneratingStream.Point :=
  if inside.isSome then [.done] else []

/-- How often a part waits. -/
def calls (p : Nat) : List (Frame Point) → Nat
  | [] => 0
  | .env :: rest => calls p rest
  | .own _ :: rest => calls p rest
  | .part p' :: rest => (if p' = p then 1 else 0) + calls p rest

/-- The stack, if all that is left to do on it is to return. The flag tells
    whether the environment is about to go on or one of the others. `Terminate`
    may be waited for if `late` holds. -/
inductive Unwinds (late : Prop) : Bool → List (Frame Point) →
    List (Nest.Point Call (Option T) Point (fun i => Signal (Published T R i)) ×
      GeneratingStream.Point) → Prop where
  | nil : Unwinds late false [] []
  | reply (k : Point) (l : GeneratingStream.Point) (rest) (ks)
      (hk : k = .done ∨ k = .terminate ∧ late)
      (hl : l ≠ .generate) (h : Unwinds late true rest ks) :
      Unwinds late false (.own k :: rest) ((.reply, l) :: ks)
  | own (rest) (ks) (h : Unwinds late true rest ks) : Unwinds late true (.own .done :: rest) ks
  | part (p : Nat) (rest) (ks) (h : Unwinds late true rest ks) :
      Unwinds late true (.part p :: rest) ks
  | env (rest) (ks) (h : Unwinds late false rest ks) : Unwinds late true (.env :: rest) ks

theorem calls_part (p : Nat) (rest : List (Frame Point)) :
    calls p (.part p :: rest) = calls p rest + 1 := by
  rw [calls, if_pos rfl, Nat.add_comm]

theorem calls_part_of_ne {p p' : Nat} (hne : p' ≠ p) (rest : List (Frame Point)) :
    calls p (.part p' :: rest) = calls p rest := by
  rw [calls, if_neg hne, Nat.zero_add]

theorem calls_bottom (sub : Bool) : calls 0 (bottom sub) = (bottomPoints sub).length := by
  cases sub <;> rfl

theorem calls_bottom_of_ne {p : Nat} (hne : p ≠ 0) (sub : Bool) : calls p (bottom sub) = 0 := by
  cases sub with
  | false => rfl
  | true => exact if_neg (Ne.symm hne)

theorem calls_baseStack {old : Option Nat} (hold : old ≠ some 0) (sub : Bool) :
    calls 0 (baseStack old sub) = (bottomPoints sub).length := by
  rw [← calls_bottom]
  cases old with
  | none => rfl
  | some p => exact calls_part_of_ne (fun heq => hold (congrArg some heq)) _

theorem calls_baseStack_old {p : Nat} (hne : p ≠ 0) (sub : Bool) :
    calls p (baseStack (some p) sub) = 1 := by
  refine (calls_part p (.own .done :: .env :: bottom sub)).trans ?_
  rw [calls, calls, calls_bottom_of_ne hne]

theorem calls_baseStack_of_ne {p : Nat} (hne : p ≠ 0) {old : Option Nat} (hold : old ≠ some p)
    (sub : Bool) : calls p (baseStack old sub) = 0 := by
  rw [← calls_bottom_of_ne hne sub]
  cases old with
  | none => rfl
  | some p' => exact calls_part_of_ne (fun heq => hold (congrArg some heq)) _

theorem calls_contStack_base {p : Nat} (hne : p ≠ 0) {inside : Option (Option Nat)}
    (hold : inside ≠ some (some 0)) (sub : Bool) :
    calls 0 (contStack p inside sub) = (basePoints inside sub).length := by
  cases inside with
  | none => exact calls_bottom sub
  | some old =>
      have hold' : old ≠ some 0 := fun heq => hold (congrArg some heq)
      refine (calls_part_of_ne hne _).trans ?_
      refine (calls_part 0 (baseStack old sub)).trans ?_
      rw [calls_baseStack hold']
      rfl

theorem calls_contStack_cont {p : Nat} (hne : p ≠ 0) {inside : Option (Option Nat)}
    (hold : inside ≠ some (some p)) (sub : Bool) :
    calls p (contStack p inside sub) = (contPoints inside).length := by
  cases inside with
  | none => exact calls_bottom_of_ne hne sub
  | some old =>
      have hold' : old ≠ some p := fun heq => hold (congrArg some heq)
      refine (calls_part p (.own .done :: .part 0 :: baseStack old sub)).trans ?_
      rw [calls, calls_part_of_ne (Ne.symm hne), calls_baseStack_of_ne hne hold']
      rfl

theorem calls_contStack_old {p p' : Nat} (hne : p' ≠ 0) (hne' : p' ≠ p) (sub : Bool) :
    calls p' (contStack p (some (some p')) sub) = 1 := by
  refine (calls_part_of_ne (Ne.symm hne') (.own .done :: .part 0 :: baseStack (some p')
      sub)).trans ?_
  rw [calls, calls_part_of_ne (Ne.symm hne), calls_baseStack_old hne]

theorem calls_contStack_of_ne {p p' : Nat} (hne : p' ≠ 0) (hne' : p' ≠ p)
    {inside : Option (Option Nat)} (hold : inside ≠ some (some p')) (sub : Bool) :
    calls p' (contStack p inside sub) = 0 := by
  cases inside with
  | none => exact calls_bottom_of_ne hne sub
  | some old =>
      have hold' : old ≠ some p' := fun heq => hold (congrArg some heq)
      refine (calls_part_of_ne (Ne.symm hne') (.own .done :: .part 0 :: baseStack old sub)).trans ?_
      rw [calls, calls_part_of_ne (Ne.symm hne), calls_baseStack_of_ne hne hold']

theorem bottomPoints_ne {sub : Bool} : ∀ l ∈ bottomPoints sub, l ≠ .generate := by
  cases sub with
  | false => exact fun l hl => absurd hl List.not_mem_nil
  | true =>
      intro l hl
      rw [List.mem_singleton.mp hl]
      simp only [ne_eq, reduceCtorEq, not_false_eq_true]

theorem basePoints_ne {inside : Option (Option Nat)} {sub : Bool} :
    ∀ l ∈ basePoints inside sub, l ≠ .generate := by
  cases inside with
  | none => exact bottomPoints_ne
  | some old =>
      intro l hl
      rcases List.mem_cons.mp hl with rfl | hl
      · simp only [ne_eq, reduceCtorEq, not_false_eq_true]
      · exact bottomPoints_ne l hl

theorem contPoints_ne {inside : Option (Option Nat)} : ∀ l ∈ contPoints inside, l ≠ .generate := by
  cases inside with
  | none => exact fun l hl => absurd hl List.not_mem_nil
  | some old =>
      intro l hl
      rw [List.mem_singleton.mp hl]
      simp only [ne_eq, reduceCtorEq, not_false_eq_true]

theorem unwinds_bottom (late : Prop) (sub : Bool) :
    Unwinds (T := T) (R := R) late false (bottom sub) (bottomReplies sub) := by
  cases sub with
  | false => exact .nil
  | true =>
      refine .reply .done .done _ _ (Or.inl rfl) ?_ (.part 0 _ _ (.own _ _ (.env _ _ .nil)))
      simp only [ne_eq, reduceCtorEq, not_false_eq_true]

theorem unwinds_baseStack (late : Prop) (old : Option Nat) (sub : Bool) :
    Unwinds (T := T) (R := R) late true (baseStack old sub) (bottomReplies sub) := by
  cases old with
  | none => exact .own _ _ (.env _ _ (unwinds_bottom late sub))
  | some p => exact .own _ _ (.part p _ _ (.own _ _ (.env _ _ (unwinds_bottom late sub))))

theorem unwinds_contStack (late : Prop) (p : Nat) (inside : Option (Option Nat)) (sub : Bool) :
    Unwinds (T := T) (R := R) late true (contStack p inside sub) (bottomReplies sub) := by
  cases inside with
  | none => exact .own _ _ (.env _ _ (unwinds_bottom late sub))
  | some old =>
      exact .own _ _ (.part p _ _ (.own _ _ (.part 0 _ _ (unwinds_baseStack late old sub))))

end Stacks

variable {late broken : Prop} {e : Listing T} {fs : T → Listing R}
  (SA : Simulation subscriptionCheck (streamProtocol T late broken) (N none) e.stream)
  (SK : ∀ v, Simulation subscriptionCheck (streamProtocol R True broken) (N (some v)) (fs v).stream)

/-- The base stands for its listing. -/
abbrev AtBase (q : StreamStage) (bA : GeneratingStream (List T))
    (ls : List GeneratingStream.Point) (parts : List (Part N)) : Prop :=
  At (N := N) (i := none) SA q bA ls 0 parts

/-- The part `p` stands for the listing of the value `v`. -/
abbrev AtCont (v : T) (q : StreamStage) (bK : GeneratingStream (List R))
    (ls : List GeneratingStream.Point) (p : Nat) (parts : List (Part N)) : Prop :=
  At (N := N) (i := some v) (SK v) q bK ls p parts

/-- A continuation that has made its last event is not needed any more. -/
def Older (parts : List (Part N)) (p : Nat) : Prop :=
  p ≠ 0 ∧ ∃ v bK, AtCont SK v .done bK [.sent true] p parts

/-- The streams that are there when the `FlatMap` is, next to the calls on the
    stack. All calls of a continuation that is not the current one have come to
    the end of its loop. -/
structure Body (fm : FlatMapStream) (parts : List (Part N)) (q : StreamStage)
    (stack : List (Frame Point)) (qA : StreamStage) (bA : GeneratingStream (List T))
    (lsA : List GeneratingStream.Point) : Prop where
  alive : fm.hasEnded = false
  subscription : fm.baseSubscription = some 0
  base : AtBase SA qA bA lsA parts
  stage : qA = .failed → q = .failed
  count : lsA.length = calls 0 stack
  points : ∀ l ∈ lsA, l ≠ .generate
  current : ∀ p, fm.contSubscription = some p → ∃ v qK bK lsK, AtCont SK v qK bK lsK p parts ∧
    p ≠ 0 ∧ bK.hasEnded = false ∧ (qK = .live ∨ qK = .failed ∧ q = .failed) ∧
    lsK.length = calls p stack ∧ ∀ l ∈ lsK, l ≠ .generate
  others : ∀ p, p ≠ 0 → fm.contSubscription ≠ some p → 0 < calls p stack →
    Older SK parts p ∧ calls p stack = 1

/-- The calls of a part on the stack only return. -/
inductive AtRest (q : StreamStage) (parts : List (Part N)) (count : Nat) : Nat → Prop where
  | base (qA : StreamStage) (bA : GeneratingStream (List T)) (ls : List GeneratingStream.Point)
      (hat : AtBase SA qA bA ls parts) (hstage : qA = .failed → q = .failed)
      (hended : bA.hasEnded = true) (hcount : ls.length = count)
      (hpoints : ∀ l ∈ ls, l ≠ .generate) :
      AtRest q parts count 0
  | cont (p : Nat) (v : T) (qK : StreamStage) (bK : GeneratingStream (List R))
      (ls : List GeneratingStream.Point) (hat : AtCont SK v qK bK ls p parts) (hne : p ≠ 0)
      (hstage : qK = .failed → q = .failed) (hended : bK.hasEnded = true ∨ ls = [.sent true])
      (hcount : ls.length = count) (hpoints : ∀ l ∈ ls, l ≠ .generate) : AtRest q parts count p

/-- The `FlatMap` is destroyed. -/
structure Dead (q : StreamStage) (st : St N)
    (ks : List (Nest.Point Call (Option T) Point (fun i => Signal (Published T R i)) ×
      GeneratingStream.Point)) : Prop where
  ended : st.state.hasEnded = true
  stage : q ≠ .fresh
  unwinds : Unwinds (q = .failed ∧ broken) false st.stack ks
  settled : ∀ p, 0 < calls p st.stack → AtRest SA SK q st.parts (calls p st.stack) p

/-- Where the base is, if it is not about to end. -/
structure Place (st : St N) (inside : Option (Option Nat)) (sub : Bool)
    (bA : GeneratingStream (List T)) : Prop where
  alive : st.state.hasEnded = false
  subscription : st.state.baseSubscription = some 0
  base : AtBase SA .live bA (basePoints inside sub) st.parts
  running : bA.hasEnded = false
  looping : bA.generating = inside.isSome
  served : bA.requested.balance = 0
  old : ∀ p, inside = some (some p) → Older SK st.parts p ∧ st.state.contSubscription ≠ some p

/-- The current continuation is the part `p`, for the value `v`. -/
structure Now (st : St N) (p : Nat) (v : T) (q : StreamStage) (bK : GeneratingStream (List R))
    (ls : List GeneratingStream.Point) : Prop where
  subscription : st.state.contSubscription = some p
  cont : AtCont SK v q bK ls p st.parts
  other : p ≠ 0
  running : bK.hasEnded = false

/-- What the subscriber asks for is asked of the current continuation. -/
structure Accord (st : St N) (b bK : GeneratingStream (List R)) : Prop where
  demand : st.state.requestBalance = b.requested
  asked : st.state.contRequested = b.requested
  cont : bK.requested = b.requested

/-- The whole has got as far as the flattened listing. -/
inductive Tracks : StreamStage → St N → GeneratingStream (List R) →
    List (Nest.Point Call (Option T) Point (fun i => Signal (Published T R i)) ×
      GeneratingStream.Point) → Prop where
  | fresh (st : St N) (hstate : st.state = {}) (hparts : st.parts = []) (hstack : st.stack = []) :
      Tracks .fresh st { state := (e.flatMap fs).values } []
  /-- The base will be asked for the next value. -/
  | idle (sub : Bool) (bA : GeneratingStream (List T)) (st : St N)
      (b : GeneratingStream (List R)) (hplace : Place SA SK st none sub bA)
      (hcurrent : st.state.contSubscription = none) (hstack : st.stack = bottom sub)
      (hdemand : st.state.requestBalance = b.requested) (hserved : b.requested.balance = 0)
      (hrunning : b.hasEnded = false) (hidle : b.generating = false)
      (hleft : (e.flatMap fs).rest b.state = (e.rest bA.state).flatMap fs) :
      Tracks .live st b (bottomReplies sub)
  /-- A continuation will be asked for it. -/
  | waiting (sub : Bool) (bA : GeneratingStream (List T)) (p : Nat) (v : T)
      (bK : GeneratingStream (List R)) (st : St N) (b : GeneratingStream (List R))
      (hplace : Place SA SK st none sub bA) (hnow : Now SK st p v .live bK [])
      (hquiet : bK.generating = false) (hstack : st.stack = bottom sub) (hagree : Accord st b bK)
      (hserved : b.requested.balance = 0) (hrunning : b.hasEnded = false)
      (hidle : b.generating = false)
      (hleft : (e.flatMap fs).rest b.state =
        ((fs v).rest bK.state).andThen ((e.rest bA.state).flatMap fs)) :
      Tracks .live st b (bottomReplies sub)
  /-- The subscriber handles a value of a continuation. -/
  | value (inside : Option (Option Nat)) (sub : Bool) (bA : GeneratingStream (List T)) (p : Nat)
      (v : T) (bK : GeneratingStream (List R)) (st : St N) (b : GeneratingStream (List R))
      (hplace : Place SA SK st inside sub bA)
      (hnow : Now SK st p v .live bK (.sent false :: contPoints inside))
      (hloop : bK.generating = true)
      (hstack : st.stack = .own .done :: .part p :: contStack p inside sub)
      (hagree : Accord st b bK) (hrunning : b.hasEnded = false) (hloop' : b.generating = true)
      (hleft : (e.flatMap fs).rest b.state =
        ((fs v).rest bK.state).andThen ((e.rest bA.state).flatMap fs)) :
      Tracks .live st b ((.reply, .sent false) :: bottomReplies sub)
  /-- It handles the status of the base. -/
  | status (q : StreamStage) (old : Option Nat) (sub : Bool) (bA : GeneratingStream (List T))
      (st : St N) (b : GeneratingStream (List R)) (hq : q ≠ .fresh)
      (hbody : Body SA SK st.state st.parts q st.stack q bA (.sent true :: bottomPoints sub))
      (hcurrent : st.state.contSubscription = none)
      (hrunning' : bA.hasEnded = false) (hloop : bA.generating = true)
      (hstack : st.stack = .own .done :: .part 0 :: baseStack old sub)
      (hrunning : b.hasEnded = false) (hloop' : b.generating = true) :
      Tracks q st b ((.reply, .sent true) :: bottomReplies sub)
  /-- It handles the error of a continuation. -/
  | error (inside : Option (Option Nat)) (sub : Bool) (bA : GeneratingStream (List T)) (p : Nat)
      (v : T) (bK : GeneratingStream (List R)) (st : St N) (b : GeneratingStream (List R))
      (hplace : Place SA SK st inside sub bA)
      (hnow : Now SK st p v .failed bK (.sent true :: contPoints inside))
      (hloop : bK.generating = true)
      (hstack : st.stack = .own .terminate :: .part p :: contStack p inside sub)
      (hrunning : b.hasEnded = false) (hloop' : b.generating = true) :
      Tracks .failed st b ((.reply, .sent true) :: bottomReplies sub)
  | dead (q : StreamStage) (st : St N) (b : GeneratingStream (List R)) (ks)
      (hdead : Dead SA SK q st ks) (hended : b.hasEnded = true) : Tracks q st b ks

section Unwinding

variable {SA SK} {q : StreamStage}
  {Inv : Nest.Result (component T R) N → Prop}
  {ks : List (Nest.Point Call (Option T) Point (fun i => Signal (Published T R i)) ×
    GeneratingStream.Point)}

/-- A method with nothing left to do returns. -/
theorem returns {st : St N} {rest : List (Frame Point)} (hstack : st.stack = .own .done :: rest)
    (h : Leads subscriptionCheck Inv (back { st with stack := rest })) :
    Leads subscriptionCheck Inv (back st) :=
  Leads.own hstack h

/-- A call of a stream that has ended returns. -/
theorem runs_dead {U : Type} {x : Listing U} {b : GeneratingStream (List U)}
    {l : GeneratingStream.Point} (hended : b.hasEnded = true) (hl : l ≠ .generate) :
    Runs x.stream (x.stream.resume noViews b l) (b, .ret) := by
  cases l with
  | done => exact GeneratingStream.runs_done
  | generate => exact absurd rfl hl
  | sent isEnd => exact GeneratingStream.runs_ended isEnd hended

/-- A call of a part returns, and the next ones can do so, too. -/
theorem AtRest.part {s : St N} {p n : Nat} {rest : List (Frame Point)}
    (h : AtRest SA SK q s.parts (n + 1) p) (hstack : s.stack = .part p :: rest)
    (hfail : q = .failed ∧ broken → ∀ s msg, Inv (s, .fail msg))
    (hnext : ∀ st', Moves p rest s st' → AtRest SA SK q st'.parts n p →
      Leads subscriptionCheck Inv (back st')) : Leads subscriptionCheck Inv (back s) := by
  cases h with
  | base qA bA ls hat hstage hended hcount hpoints =>
      cases ls with
      | nil => cases hcount
      | cons l ls =>
          refine Leads.part_ret hstack hat (runs_dead hended (hpoints l (List.mem_cons_self ..)))
            (fun hbroken => hfail ⟨hstage hbroken.1, hbroken.2⟩) fun st' hmoves hat' => ?_
          refine hnext st' hmoves (.base qA bA ls hat' hstage hended ?_ ?_)
          · rw [List.length_cons] at hcount
            omega
          · exact fun l hl => hpoints l (List.mem_cons_of_mem _ hl)
  | cont _ v qK bK ls hat hne hstage hended hcount hpoints =>
      cases ls with
      | nil => cases hcount
      | cons l ls =>
          rw [List.length_cons] at hcount
          have hls : ∀ l ∈ ls, l ≠ .generate := fun l hl => hpoints l (List.mem_cons_of_mem _ hl)
          have hbroken : qK = .failed ∧ broken → ∀ s msg, Inv (s, .fail msg) :=
            fun hbroken => hfail ⟨hstage hbroken.1, hbroken.2⟩
          by_cases hdead : bK.hasEnded = true
          · refine Leads.part_ret hstack hat (runs_dead hdead (hpoints l (List.mem_cons_self ..)))
              hbroken fun st' hmoves hat' => ?_
            exact hnext st' hmoves (.cont p v qK bK ls hat' hne hstage (Or.inl hdead)
                (by omega) hls)
          -- it destroys its lambdas, which the stream does not notice
          · rcases hended with hended | hlast
            · exact absurd hended hdead
            · rw [List.cons.injEq] at hlast
              rcases hlast with ⟨rfl, rfl⟩
              rw [Bool.not_eq_true] at hdead
              refine Leads.part_out hstack hat (GeneratingStream.runs_last hdead) hbroken
                fun st' hmoves hat' => ?_
              refine Leads.part_ret (hmoves.stack_eq.trans hstack) hat' GeneratingStream.runs_done
                hbroken fun st'' hmoves' hat'' => ?_
              refine hnext st'' ⟨hmoves'.state.trans hmoves.state, hmoves'.stack_eq, ?_,
                hmoves'.length.trans hmoves.length⟩ ?_
              · exact fun p' hne => (hmoves'.others p' hne).trans (hmoves.others p' hne)
              · exact .cont p v qK _ [] hat'' hne hstage (Or.inl rfl) (by omega) hls

/-- Other parts stay settled. -/
theorem AtRest.moves {st st' : St N} {p p' n : Nat} {stack : List (Frame Point)}
    (h : AtRest SA SK q st.parts n p') (hmoves : Moves p stack st st') (hne : p' ≠ p) :
    AtRest SA SK q st'.parts n p' := by
  cases h with
  | base qA bA ls hat hstage hended hcount hpoints =>
      exact .base qA bA ls (hmoves.at hne hat) hstage hended hcount hpoints
  | cont _ v qK bK ls hat hnz hstage hended hcount hpoints =>
      exact .cont p' v qK bK ls (hmoves.at hne hat) hnz hstage hended hcount hpoints

/-- When the stream is destroyed all calls return to the environment. The
    induction is on the stack. -/
theorem unwind {stack : List (Frame Point)} {flag : Bool}
    (h : Unwinds (q = .failed ∧ broken) flag stack ks) (st : St N) (hflag : flag = true)
    (hstack : st.stack = stack) (hended : st.state.hasEnded = true) (hstage : q ≠ .fresh)
    (hsettled : ∀ p, 0 < calls p st.stack → AtRest SA SK q st.parts (calls p st.stack) p)
    (hfail : q = .failed ∧ broken → ∀ st msg, Inv (st, .fail msg))
    (hnext : ∀ st', Dead SA SK q st' ks → Inv (st', .ret)) :
    Leads subscriptionCheck Inv (back st) := by
  induction h generalizing st with
  | nil => cases hflag
  | reply k l rest ks hk hl h ih => cases hflag
  | own rest ks h ih =>
      refine returns hstack ?_
      rw [hstack] at hsettled
      exact ih { st with stack := rest } rfl rfl hended hsettled hnext
  | part p rest ks h ih =>
      rw [hstack] at hsettled
      have hp := hsettled p (by rw [calls_part]; omega)
      rw [calls_part] at hp
      -- The part waits at points that only return, and no other part moves.
      refine hp.part hstack hfail fun st' hmoves hp' => ?_
      refine ih st' rfl hmoves.stack_eq (hmoves.state ▸ hended) ?_ hnext
      intro p' hpos
      rw [hmoves.stack_eq] at hpos ⊢
      by_cases heq : p' = p
      · rw [heq]
        exact hp'
      · have hp'' := hsettled p' (by rw [calls_part_of_ne (Ne.symm heq)]; exact hpos)
        rw [calls_part_of_ne (Ne.symm heq)] at hp''
        exact hp''.moves hmoves heq
  | env rest ks h ih =>
      refine Leads.env hstack (hnext _ ⟨hended, hstage, h, ?_⟩)
      rw [hstack] at hsettled
      exact hsettled

/-- A part that is the same stays where it is. -/
theorem at_of_eq {i : Option T} {B : Machine Call (Signal (Published T R i)) Bool
    (fun i => Signal (NoParts i))} {proto : Protocol Call (Signal (Published T R i))}
    {S : Simulation subscriptionCheck proto (N i) B} {qS : proto.Stage} {b : B.State}
    {ls : List B.Point} {p : Nat} {parts parts' : List (Part N)}
    (h : At (N := N) S qS b ls p parts) (heq : parts'[p]? = parts[p]?) :
    At (N := N) S qS b ls p parts' := by
  rcases h with ⟨u, hget, hu⟩
  exact ⟨u, heq.trans hget, hu⟩

/-- When the base has ended and the current continuation is settled, so is
    every part that waits. -/
theorem Body.dead {fm : FlatMapStream} {parts : List (Part N)} {stack : List (Frame Point)}
    {qA : StreamStage} {bA : GeneratingStream (List T)} {lsA : List GeneratingStream.Point}
    (h : Body SA SK fm parts q stack qA bA lsA) (hbase : bA.hasEnded = true)
    (hunwinds : Unwinds (q = .failed ∧ broken) true stack ks) (hstage : q ≠ .fresh) (st : St N)
    (hended : st.state.hasEnded = true) (hstack : st.stack = .own .done :: stack)
    (hcurrent : ∀ p, fm.contSubscription = some p → AtRest SA SK q st.parts (calls p stack) p)
    (hothers : ∀ p, fm.contSubscription ≠ some p → st.parts[p]? = parts[p]?) :
    Dead SA SK q st ((.reply, .done) :: ks) := by
  refine ⟨hended, hstage, ?_, ?_⟩
  · rw [hstack]
    exact .reply .done .done _ _ (Or.inl rfl) (by simp only [ne_eq, reduceCtorEq,
      not_false_eq_true]) hunwinds
  · intro p hpos
    rw [hstack] at hpos ⊢
    by_cases hcur : fm.contSubscription = some p
    · exact hcurrent p hcur
    · have heq := hothers p hcur
      by_cases hzero : p = 0
      · subst hzero
        exact .base qA bA lsA (at_of_eq h.base heq) h.stage hbase h.count h.points
      · rcases h.others p hzero hcur hpos with ⟨⟨hne, v, bK, hat⟩, hcount⟩
        refine .cont p v .done bK [.sent true] (at_of_eq hat heq) hne ?_ (Or.inr rfl) hcount.symm ?_
        · simp only [reduceCtorEq, false_implies]
        · simp only [List.mem_singleton, forall_eq, ne_eq, reduceCtorEq, not_false_eq_true]

/-- The base destroys the stream, which cancels the current continuation. -/
theorem destructor_leads {st : St N} {qA : StreamStage} {bA : GeneratingStream (List T)}
    {lsA : List GeneratingStream.Point}
    (h : Body SA SK st.state st.parts q st.stack qA bA lsA) (hbase : bA.hasEnded = true)
    (hunwinds : Unwinds (q = .failed ∧ broken) true st.stack ks) (hstage : q ≠ .fresh)
    (hfail : q = .failed ∧ broken → ∀ st msg, Inv (st, .fail msg))
    (hnext : ∀ st', Dead SA SK q st' ((.reply, .done) :: ks) → Inv (st', .out .destroy .reply)) :
    Leads subscriptionCheck Inv (perform subscriptionCheck st
      ((component T R).said st.views st.state 0 none .destroy)) := by
  change Leads subscriptionCheck Inv (perform subscriptionCheck st (st.state.destructor st.views))
  rw [destructor]
  cases hcur : st.state.contSubscription with
  | none =>
      refine .stop rfl (hnext _ (h.dead hbase hunwinds hstage _ rfl rfl ?_ fun p _ => rfl))
      intro p hp
      rw [hcur] at hp
      cases hp
  | some p =>
      rcases h.current p hcur with ⟨v, qK, bK, lsK, hat, hne, hrunning, hqK, hcount, hpoints⟩
      have hlook : st.views p = bK.hasEnded := hat.view
      have hview : st.views p = false := hlook.trans hrunning
      have hgate : subscriptionCheck bK.hasEnded .cancel = none := by
        rw [hrunning, subscriptionCheck_false]
      have hallow : qK = .live ∨ qK = .failed ∧ True := hqK.imp id fun hq => ⟨hq.1, trivial⟩
      have hbroken : qK = .failed ∧ broken → ∀ st msg, Inv (st, .fail msg) := by
        intro hbroken
        refine hfail ⟨?_, hbroken.2⟩
        rcases hqK with hlive | hq
        · exact absurd (hlive.symm.trans hbroken.1) (by simp only [reduceCtorEq, not_false_eq_true])
        · exact hq.2
      -- The continuation is still running, so it is cancelled first.
      simp only [hview, Bool.false_eq_true, if_false]
      refine Leads.ask hat hgate ?_
      refine Leads.ask_out hat hallow hgate GeneratingStream.runs_cancel hbroken
        fun st1 hmoves1 hat1 => ?_
      refine Leads.part_ret hmoves1.stack_eq hat1 GeneratingStream.runs_done hbroken
        fun st2 hmoves2 hat2 => ?_
      refine Leads.own hmoves2.stack_eq ?_
      -- No other part has moved meanwhile.
      have hothers : ∀ p', st.state.contSubscription ≠ some p' →
          st2.parts[p']? = st.parts[p']? := by
        intro p' hp'
        have hne' : p' ≠ p := fun heq => hp' (heq ▸ hcur)
        exact (hmoves2.others p' hne').trans (hmoves1.others p' hne')
      refine .stop rfl (hnext _ (h.dead hbase hunwinds hstage _ rfl rfl ?_ hothers))
      intro p' hp'
      rw [hcur, Option.some.injEq] at hp'
      subst hp'
      exact .cont p v qK _ lsK hat2 hne (fun hq => (hqK.resolve_left (by rw [hq]; decide)).2)
        (Or.inl rfl) hcount hpoints

/-- Only the base has gone on. -/
theorem Body.move {fm : FlatMapStream} {parts parts' : List (Part N)}
    {stack stack' : List (Frame Point)} {q' qA qA' : StreamStage}
    {bA bA' : GeneratingStream (List T)} {lsA lsA' : List GeneratingStream.Point}
    (h : Body SA SK fm parts q stack qA bA lsA) (hat : AtBase SA qA' bA' lsA' parts')
    (hstage : qA' = .failed → q' = .failed) (hq : q = .failed → q' = .failed)
    (hcount : lsA'.length = calls 0 stack') (hpoints : ∀ l ∈ lsA', l ≠ .generate)
    (hothers : ∀ p, p ≠ 0 → parts'[p]? = parts[p]?)
    (hcalls : ∀ p, p ≠ 0 → calls p stack' = calls p stack) :
    Body SA SK fm parts' q' stack' qA' bA' lsA' := by
  refine ⟨h.alive, h.subscription, hat, hstage, hcount, hpoints, ?_, ?_⟩
  · intro p hp
    rcases h.current p hp with ⟨v, qK, bK, lsK, hcont, hne, hrunning, hqK, hlen, hls⟩
    refine ⟨v, qK, bK, lsK, at_of_eq hcont (hothers p hne), hne, hrunning, ?_, ?_, hls⟩
    · exact hqK.imp id fun hfailed => ⟨hfailed.1, hq hfailed.2⟩
    · rw [hcalls p hne, hlen]
  · intro p hne hcur hpos
    rw [hcalls p hne] at hpos ⊢
    rcases h.others p hne hcur hpos with ⟨⟨_, v, bK, hcont⟩, hlen⟩
    exact ⟨⟨hne, v, bK, at_of_eq hcont (hothers p hne)⟩, hlen⟩

/-- The base is cancelled. -/
theorem cancel_base {st : St N} {qA : StreamStage} {bA : GeneratingStream (List T)}
    {lsA : List GeneratingStream.Point}
    (h : Body SA SK st.state st.parts q st.stack qA bA lsA) (hrunning : bA.hasEnded = false)
    (hallow : qA = .live ∨ qA = .failed ∧ late)
    (hunwinds : Unwinds (q = .failed ∧ broken) true st.stack ks) (hstage : q ≠ .fresh)
    (hfail : q = .failed ∧ broken → ∀ st msg, Inv (st, .fail msg))
    (hnext : ∀ st', Dead SA SK q st' ((.reply, .done) :: ks) → Inv (st', .out .destroy .reply)) :
    Leads subscriptionCheck Inv (perform subscriptionCheck st (st.state.askBase .cancel)) := by
  have hgate : subscriptionCheck bA.hasEnded .cancel = none := by
    rw [hrunning, subscriptionCheck_false]
  simp only [askBase, h.subscription]
  refine Leads.ask h.base hgate ?_
  refine Leads.ask_out h.base hallow hgate GeneratingStream.runs_cancel
    (fun hbroken => hfail ⟨h.stage hbroken.1, hbroken.2⟩) fun st1 hmoves hat => ?_
  -- `Cancel` destroys the subscriber of the base, which is this stream.
  have hbody : Body SA SK st1.state st1.parts q st1.stack qA { bA with hasEnded := true }
      (.done :: lsA) := by
    rw [hmoves.state, hmoves.stack_eq]
    refine h.move hat h.stage id ?_ ?_ hmoves.others fun p hne => ?_
    · rw [List.length_cons, h.count, calls_part, calls]
    · intro l hl
      rcases List.mem_cons.mp hl with rfl | hl
      · simp only [ne_eq, reduceCtorEq, not_false_eq_true]
      · exact h.points l hl
    · rw [calls_part_of_ne (Ne.symm hne), calls]
  refine destructor_leads hbody rfl ?_ hstage hfail hnext
  rw [hmoves.stack_eq]
  exact .part 0 _ _ (.own _ _ hunwinds)

end Unwinding

section Loops

/-- The loop of the current continuation goes on. -/
structure ContTurn (st : St N) (inside : Option (Option Nat)) (sub : Bool)
    (bA : GeneratingStream (List T)) (p : Nat) (v : T) (bK b : GeneratingStream (List R)) :
    Prop where
  place : Place SA SK st inside sub bA
  subscription : st.state.contSubscription = some p
  other : p ≠ 0
  lt : p < st.parts.length
  running : bK.hasEnded = false
  looping : bK.generating = true
  agree : Accord st b bK
  stack : st.stack = contStack p inside sub
  running' : b.hasEnded = false
  looping' : b.generating = true
  left : (e.flatMap fs).rest b.state =
    ((fs v).rest bK.state).andThen ((e.rest bA.state).flatMap fs)

/-- The loop of the base goes on, which was asked for a value. -/
structure BaseTurn (st : St N) (old : Option Nat) (sub : Bool) (bA : GeneratingStream (List T))
    (b : GeneratingStream (List R)) : Prop where
  alive : st.state.hasEnded = false
  subscription : st.state.baseSubscription = some 0
  current : st.state.contSubscription = none
  lt : 0 < st.parts.length
  older : ∀ p, old = some p → Older SK st.parts p
  running : bA.hasEnded = false
  looping : bA.generating = true
  asked : bA.requested.balance = 1
  stack : st.stack = baseStack old sub
  demand : st.state.requestBalance = b.requested
  more : 0 < b.requested.balance
  running' : b.hasEnded = false
  looping' : b.generating = true
  left : (e.flatMap fs).rest b.state = (e.rest bA.state).flatMap fs

/-- What the whole is led to is what the flattened listing does. -/
def Goes (q : StreamStage)
    (ks : List (Nest.Point Call (Option T) Point (fun i => Signal (Published T R i)) ×
      GeneratingStream.Point)) (rB : Machine.Outcome (e.flatMap fs).stream)
    (w : Nest.Result (component T R) N) : Prop :=
  ∃ w', Runs (e.flatMap fs).stream rB w' ∧
    Match (streamProtocol R late broken) (A := closed N) (B := (e.flatMap fs).stream)
      (Tracks SA SK) q ks w w'

/-- From where the loop of the continuation `p` goes on, the whole does what the
    flattened listing does. -/
def ContGoes (st : St N) (inside : Option (Option Nat)) (sub : Bool) (p : Nat) (v : T)
    (bK b : GeneratingStream (List R)) : Prop :=
  ∀ (rB : Machine.Outcome (e.flatMap fs).stream)
    (ks : List ((N (some v)).Point × GeneratingStream.Point)) (r : Machine.Outcome (N (some v)))
    (rK : Machine.Outcome (fs v).stream),
    (∀ w, Runs (e.flatMap fs).stream (b, .goto .generate) w → Runs (e.flatMap fs).stream rB w) →
    (∀ w, Runs (fs v).stream (bK, .goto .generate) w → Runs (fs v).stream rK w) →
    ks.map Prod.snd = contPoints inside →
    Answers (streamProtocol R True broken) (SK v).Rel .live ks r rK →
    Leads subscriptionCheck (Goes SA SK .live (bottomReplies sub) rB)
        (answer st p (some v) (ks.map Prod.fst) r)

/-- From where the loop of the base goes on. -/
def BaseGoes (st : St N) (sub : Bool) (bA : GeneratingStream (List T))
    (b : GeneratingStream (List R)) : Prop :=
  ∀ (rB : Machine.Outcome (e.flatMap fs).stream)
    (ks : List ((N none).Point × GeneratingStream.Point)) (r : Machine.Outcome (N none))
    (rA : Machine.Outcome e.stream),
    (∀ w, Runs (e.flatMap fs).stream (b, .goto .generate) w → Runs (e.flatMap fs).stream rB w) →
    (∀ w, Runs e.stream (bA, .goto .generate) w → Runs e.stream rA w) →
    ks.map Prod.snd = bottomPoints sub →
    Answers (streamProtocol T late broken) SA.Rel .live ks r rA →
    Leads subscriptionCheck (Goes SA SK .live (bottomReplies sub) rB)
        (answer st 0 none (ks.map Prod.fst) r)

/-- It does so with these values of the base left. -/
def BaseLoop (xs : List T) : Prop :=
  ∀ (st : St N) (old : Option Nat) (sub : Bool) (bA : GeneratingStream (List T))
    (b : GeneratingStream (List R)), BaseTurn (e := e) SK st old sub bA b → bA.state = xs →
    BaseGoes SA SK st sub bA b

variable {SA SK} {st : St N} {inside : Option (Option Nat)} {old : Option Nat} {sub : Bool}
  {bA : GeneratingStream (List T)} {p : Nat} {v : T} {bK b : GeneratingStream (List R)}

/-- The base stays where it is while the current continuation goes on. -/
theorem Place.keep {st' : St N} (h : Place SA SK st inside sub bA)
    (hcur : st.state.contSubscription = some p) (hne : p ≠ 0)
    (halive : st'.state.hasEnded = st.state.hasEnded)
    (hbase : st'.state.baseSubscription = st.state.baseSubscription)
    (hcont : st'.state.contSubscription = st.state.contSubscription)
    (hothers : ∀ p', p' ≠ p → st'.parts[p']? = st.parts[p']?) : Place SA SK st' inside sub bA := by
  refine ⟨halive.trans h.alive, hbase.trans h.subscription,
    at_of_eq h.base (hothers 0 (Ne.symm hne)), h.running, h.looping, h.served, ?_⟩
  intro p' hp'
  rcases h.old p' hp' with ⟨⟨hzero, v', bK', hat'⟩, hother⟩
  have hne' : p' ≠ p := fun heq => hother (heq ▸ hcur)
  exact ⟨⟨hzero, v', bK', at_of_eq hat' (hothers p' hne')⟩, hcont ▸ hother⟩

theorem Place.moves {st1 st2 : St N} {stack : List (Frame Point)} (h : Place SA SK st inside sub bA)
    (hcur : st.state.contSubscription = some p) (hne : p ≠ 0) (hmoves : Moves p stack st st1)
    (hparts : st2.parts = st1.parts) (halive : st2.state.hasEnded = st1.state.hasEnded)
    (hbase : st2.state.baseSubscription = st1.state.baseSubscription)
    (hcont : st2.state.contSubscription = st1.state.contSubscription) :
    Place SA SK st2 inside sub bA := by
  rw [hmoves.state] at halive hbase hcont
  exact h.keep hcur hne halive hbase hcont fun p' hp' => hparts ▸ hmoves.others p' hp'

variable (SA) in
include SA in
/-- When the loop of the base ends everything returns to the environment. -/
theorem leave {Inv : Nest.Result (component T R) N → Prop} (hstack : st.stack = baseStack old sub)
    (hold : ∀ p, old = some p → Older SK st.parts p)
    (hnext : ∀ st', st'.state = st.state → st'.stack = bottom sub →
      (∀ p, old ≠ some p → st'.parts[p]? = st.parts[p]?) → Inv (st', .ret)) :
    Leads subscriptionCheck Inv (back st) := by
  refine returns hstack ?_
  cases old with
  | none => exact Leads.env rfl (hnext _ rfl rfl fun p _ => rfl)
  | some p =>
      rcases hold p rfl with ⟨hne, v, bK, hat⟩
      have hsettled : AtRest SA SK .done st.parts 1 p := by
        refine .cont p v .done bK [.sent true] hat hne ?_ (Or.inr rfl) rfl ?_
        · exact fun h => h
        · simp only [List.mem_singleton, forall_eq, ne_eq, reduceCtorEq, not_false_eq_true]
      refine hsettled.part (s := { st with stack := .part p :: .own .done :: .env :: bottom sub })
        rfl ?_ fun st' hmoves _ => ?_
      · exact fun h => absurd h.1 (by simp only [reduceCtorEq, not_false_eq_true])
      refine returns hmoves.stack_eq (Leads.env rfl ?_)
      refine hnext _ hmoves.state rfl fun p' hp' => hmoves.others p' ?_
      exact fun heq => hp' (congrArg some heq.symm)

/-- The continuation is not asked for more. -/
theorem ContTurn.rest (h : ContTurn SA SK st inside sub bA p v bK b)
    (hno : b.requested.hasRequests = false) : ContGoes SA SK st inside sub p v bK b := by
  intro rB ks r rK hB hK hks hans
  have hzero : b.requested.balance = 0 := by
    rw [← Nat.le_zero, ← Nat.not_lt, ← RequestBalance.hasRequests_iff, hno]
    exact Bool.false_ne_true
  have hruns := hK _ (GeneratingStream.runs_none (h.agree.cont ▸ hno))
  have hrunsB := hB _ (GeneratingStream.runs_none hno)
  -- what is left to show where the environment goes on
  have hend : ∀ st' bA', bA'.state = bA.state → Place SA SK st' none sub bA' →
      st'.state = st.state → st'.stack = bottom sub →
      AtCont SK v .live { bK with generating := false } [] p st'.parts →
      Goes SA SK .live (bottomReplies sub) rB (st', .ret) := by
    intro st' bA' hleft hplace hstate hstack hat
    refine ⟨_, hrunsB, .ret _ _ (.waiting sub bA' p v { bK with generating := false } st' _ hplace
      ⟨hstate ▸ h.subscription, hat, h.other, h.running⟩ rfl hstack ?_ hzero h.running' rfl ?_)⟩
    · exact ⟨hstate ▸ h.agree.demand, hstate ▸ h.agree.asked, h.agree.cont⟩
    · exact h.left.trans (by rw [hleft])
  refine Leads.answer_ret hans hruns h.lt ?_ fun st1 hmoves hat => ?_
  · exact fun hbroken => absurd hbroken.1 (by simp only [reduceCtorEq, not_false_eq_true])
  rw [hks] at hat
  have hstack1 := hmoves.stack_eq.trans h.stack
  have hplace := h.place
  have hbase := hmoves.at (Ne.symm h.other) hplace.base
  cases inside with
  | none =>
      refine returns hstack1 (Leads.env rfl (hend _ bA rfl ?_ hmoves.state rfl hat))
      exact hplace.moves h.subscription h.other hmoves rfl rfl rfl rfl
  | some old =>
      refine returns hstack1 (Leads.part_ret rfl hat GeneratingStream.runs_done ?_
        fun st2 hmoves2 hat2 => ?_)
      · exact fun hbroken => absurd hbroken.1 (by simp only [reduceCtorEq, not_false_eq_true])
      have hbase2 := hmoves2.at (Ne.symm h.other) hbase
      have hserved : bA.requested.hasRequests = false := by
        rw [RequestBalance.hasRequests, hplace.served]
        rfl
      refine returns hmoves2.stack_eq (Leads.part_ret rfl hbase2 (GeneratingStream.runs_sent
        hplace.running (GeneratingStream.runs_none hserved)) ?_ fun st3 hmoves3 hat3 => ?_)
      · exact fun hbroken => absurd hbroken.1 (by simp only [reduceCtorEq, not_false_eq_true])
      have hstate3 : st3.state = st.state :=
        hmoves3.state.trans (hmoves2.state.trans hmoves.state)
      have holder : ∀ p', old = some p' → Older SK st3.parts p' := by
        intro p' hp'
        rcases hplace.old p' (congrArg some hp') with ⟨⟨hne, v', bK', hat'⟩, hcur⟩
        have hne' : p' ≠ p := fun heq => hcur (heq ▸ h.subscription)
        exact ⟨hne, v', bK', hmoves3.at hne (hmoves2.at hne' (hmoves.at hne' hat'))⟩
      refine leave SA hmoves3.stack_eq holder fun st4 hstate hstack hparts => ?_
      have hzero4 : st4.parts[0]? = st3.parts[0]? :=
        hparts 0 fun heq => (holder 0 heq).1 rfl
      have hp4 : st4.parts[p]? = st3.parts[p]? := by
        refine hparts p fun heq => ?_
        exact (hplace.old p (congrArg some heq)).2 h.subscription
      refine hend st4 { bA with generating := false } rfl ?_ (hstate.trans hstate3) hstack
        (at_of_eq (hmoves3.at h.other hat2) hp4)
      refine ⟨?_, ?_, at_of_eq hat3 hzero4, hplace.running, rfl, hplace.served,
        fun p' hp' => by cases hp'⟩
      · rw [hstate, hstate3]
        exact hplace.alive
      · rw [hstate, hstate3]
        exact hplace.subscription

/-- The continuation makes a value. -/
theorem ContTurn.value (h : ContTurn SA SK st inside sub bA p v bK b)
    (hmore : b.requested.hasRequests = true) {y : R} {ys : List R} (hstate : bK.state = y :: ys) :
    ContGoes SA SK st inside sub p v bK b := by
  intro rB ks r rK hB hK hks hans
  rcases RequestBalance.remove_isSome _ ((RequestBalance.hasRequests_iff _).mp hmore) with ⟨c, hc⟩
  have hleft := h.left
  rw [hstate, Listing.andThen_cons] at hleft
  have hruns := hK _ (Listing.runs_value hstate (h.agree.cont ▸ hmore) (h.agree.cont ▸ hc))
  have hrunsB := hB _ (Listing.runs_value (congrArg Listing.values hleft) hmore hc)
  refine Leads.answer_out hans hruns h.lt ?_ fun st1 hmoves hat => ?_
  · exact fun hbroken => absurd hbroken.1 (by simp only [reduceCtorEq, not_false_eq_true])
  rw [hks] at hat
  have hplace := h.place
  -- The value is paid for from both balances, and passed on.
  have hcode : (component T R).said st1.views st1.state p (some v) (.onNext (.value y)) =
      ({ st1.state with requestBalance := c, contRequested := c }, .out (.onNext (.value y))
          .done) := by
    change st1.state.onNextCont (.value y) = _
    rw [hmoves.state]
    simp only [onNextCont, hplace.alive, Bool.false_eq_true, if_false, StatusOr.isEnd_value,
      Bool.not_false, if_true, h.agree.demand, h.agree.asked, hc, send]
  rw [hcode]
  refine .stop rfl ⟨_, hrunsB, .out _ _ _ _ _ ?_⟩
  -- While it is handled both loops wait, with the same values left.
  refine .value inside sub bA p v { bK with requested := c, state := ys } _ _ ?_ ?_ h.looping ?_ ?_
    h.running' h.looping' ?_
  · exact hplace.moves h.subscription h.other hmoves rfl rfl rfl rfl
  · exact ⟨hmoves.state ▸ h.subscription, hat, h.other, h.running⟩
  · exact congrArg _ (hmoves.stack_eq.trans (congrArg _ h.stack))
  · exact ⟨rfl, rfl, rfl⟩
  · exact Listing.rest_values hleft

/-- It makes an error. -/
theorem ContTurn.error (h : ContTurn SA SK st inside sub bA p v bK b)
    (hmore : b.requested.hasRequests = true) (hstate : bK.state = [])
    (herror : (fs v).ending.code ≠ .outOfRange) : ContGoes SA SK st inside sub p v bK b := by
  intro rB ks r rK hB hK hks hans
  rcases RequestBalance.remove_isSome _ ((RequestBalance.hasRequests_iff _).mp hmore) with ⟨c, hc⟩
  have hleft := h.left
  rw [hstate, Listing.andThen_error _ _ _ herror] at hleft
  have hending := Listing.ending_of_rest hleft
  have hruns := hK _ (Listing.runs_status hstate (h.agree.cont ▸ hmore) (h.agree.cont ▸ hc))
  have hrunsB := hB _ (Listing.runs_status (congrArg Listing.values hleft) hmore hc)
  -- The flattened listing ends in this very status.
  have hstatus : (.status (e.flatMap fs).ending (e.flatMap fs).notOk : StatusOr R) =
      .status (fs v).ending (fs v).notOk := by simp only [hending]
  have hdone : (.status (fs v).ending (fs v).notOk : StatusOr R).isDone = false := by
    simpa only [StatusOr.isDone_status, beq_eq_false_iff_ne] using herror
  have hafter : (streamProtocol R True broken).after .live
      (.onNext (.status (fs v).ending (fs v).notOk)) = .failed := by
    simp only [streamProtocol, hdone, Bool.false_eq_true, if_false, StatusOr.isEnd_status, if_true]
  rw [hstatus] at hrunsB
  refine Leads.answer_out hans hruns h.lt ?_ fun st1 hmoves hat => ?_
  · exact fun hbroken => absurd hbroken.1 (by simp only [reduceCtorEq, not_false_eq_true])
  rw [hks, hafter] at hat
  have hplace := h.place
  -- The error is sent as it is, and `Terminate` waits for the handler.
  have hcode : (component T R).said st1.views st1.state p (some v)
      (.onNext (.status (fs v).ending (fs v).notOk)) =
      (st1.state, .out (.onNext (.status (fs v).ending (fs v).notOk)) .terminate) := by
    change st1.state.onNextCont (.status (fs v).ending (fs v).notOk) = _
    rw [hmoves.state]
    simp only [onNextCont, hplace.alive, Bool.false_eq_true, if_false, StatusOr.isEnd_status,
      Bool.not_true, hdone, send]
  rw [hcode]
  refine .stop rfl ⟨_, hrunsB, .out _ _ _ _ _ ?_⟩
  change Tracks SA SK ((streamProtocol R True broken).after .live
    (.onNext (.status (fs v).ending (fs v).notOk))) _ _ _
  rw [hafter]
  refine .error inside sub bA p v { bK with requested := c } _ _ ?_ ?_ h.looping ?_ h.running'
    h.looping'
  · exact hplace.moves h.subscription h.other hmoves rfl rfl rfl rfl
  · exact ⟨hmoves.state ▸ h.subscription, hat, h.other, h.running⟩
  · exact congrArg _ (hmoves.stack_eq.trans (congrArg _ h.stack))

/-- It makes `Done`, and the base is asked for the next value. -/
theorem ContTurn.done (h : ContTurn SA SK st inside sub bA p v bK b)
    (hnext : BaseLoop SA SK bA.state) (hmore : b.requested.hasRequests = true)
    (hstate : bK.state = []) (hdone : (fs v).ending.code = .outOfRange) :
    ContGoes SA SK st inside sub p v bK b := by
  intro rB ks r rK hB hK hks hans
  rcases RequestBalance.remove_isSome _ ((RequestBalance.hasRequests_iff _).mp hmore) with ⟨c, hc⟩
  have hleft := h.left
  rw [hstate, Listing.andThen_done _ _ hdone] at hleft
  have hruns := hK _ (Listing.runs_status hstate (h.agree.cont ▸ hmore) (h.agree.cont ▸ hc))
  have hisDone : (.status (fs v).ending (fs v).notOk : StatusOr R).isDone = true := by
    simpa only [StatusOr.isDone_status, beq_iff_eq] using hdone
  have hafter : (streamProtocol R True broken).after .live
      (.onNext (.status (fs v).ending (fs v).notOk)) = .done := by
    simp only [streamProtocol, hisDone, if_true]
  refine Leads.answer_out hans hruns h.lt ?_ fun st1 hmoves hat => ?_
  · exact fun hbroken => absurd hbroken.1 (by simp only [reduceCtorEq, not_false_eq_true])
  rw [hks, hafter] at hat
  have hplace := h.place
  have hcode : (component T R).said st1.views st1.state p (some v)
      (.onNext (.status (fs v).ending (fs v).notOk)) =
      ({ st1.state with contSubscription := none }, .ask 0 (.request 1) .done) := by
    change st1.state.onNextCont (.status (fs v).ending (fs v).notOk) = _
    rw [hmoves.state]
    simp only [onNextCont, hplace.alive, Bool.false_eq_true, if_false, StatusOr.isEnd_status,
      Bool.not_true, hisDone, if_true, h.agree.demand, hmore, request, RequestBalance.add_zero,
      askBase, hplace.subscription]
  rw [hcode]
  have hbase := hmoves.at (Ne.symm h.other) hplace.base
  have hgate : subscriptionCheck bA.hasEnded (.request 1) = none := by
    rw [hplace.running, subscriptionCheck_false]
  have hallow : (streamProtocol T late broken).allow .live (.request 1) := by
    refine ⟨?_, Nat.le_refl 1, ?_⟩
    · simp only [ne_eq, reduceCtorEq, not_false_eq_true]
    · rw [kMax]
      omega
  have hasked : (bA.requested.add 1).balance = 1 := by
    rw [RequestBalance.balance_add, hplace.served]
    rfl
  refine Leads.ask hbase hgate ?_
  cases inside with
  | none =>
      refine Leads.ask_go hbase hallow hgate fun ks' r' hls' hans' => ?_
      refine hnext _ (some p) sub
        { bA with requested := bA.requested.add 1, generating := true } b ?_ rfl rB ks' r' _ hB
        (fun w hw => GeneratingStream.runs_request hplace.looping hw) hls' hans'
      refine ⟨hmoves.state ▸ hplace.alive, hmoves.state ▸ hplace.subscription, rfl, hbase.lt, ?_,
        hplace.running, rfl, hasked, ?_, hmoves.state ▸ h.agree.demand,
        (RequestBalance.hasRequests_iff _).mp hmore, h.running', h.looping', hleft⟩
      · intro p' hp'
        rw [Option.some.injEq] at hp'
        subst hp'
        exact ⟨h.other, v, _, hat⟩
      · exact congrArg _ (hmoves.stack_eq.trans (congrArg _ h.stack))
  | some old =>
      have hlive : ∀ {given : Prop}, (StreamStage.live = .failed ∧ given) →
          ∀ st msg, Goes SA SK .live (bottomReplies sub) rB (st, .fail msg) := fun h' =>
        absurd h'.1 (by simp only [reduceCtorEq, not_false_eq_true])
      have hover : ∀ {given : Prop}, (StreamStage.done = .failed ∧ given) →
          ∀ st msg, Goes SA SK .live (bottomReplies sub) rB (st, .fail msg) := fun h' =>
        absurd h'.1 (by simp only [reduceCtorEq, not_false_eq_true])
      -- the loop of the base is still running, and goes on when the continuation has returned
      refine Leads.ask_ret hbase hallow hgate (GeneratingStream.runs_busy 1 hplace.looping) hlive
        fun st2 hmoves2 hbase2 => ?_
      have hat2 := hmoves2.at h.other hat
      have hstack2 : (Frame.own Point.done :: st1.stack : List (Frame Point)) =
          .own .done :: .part p :: .own .done :: .part p :: .own .done :: .part 0 ::
            baseStack old sub := congrArg _ (hmoves.stack_eq.trans (congrArg _ h.stack))
      refine returns (hmoves2.stack_eq.trans hstack2) ?_
      refine Leads.part_out rfl hat2 (GeneratingStream.runs_last h.running) hover
        fun st3 hmoves3 hat3 => ?_
      refine Leads.part_ret hmoves3.stack_eq hat3 GeneratingStream.runs_done hover
        fun st4 hmoves4 hat4 => ?_
      refine returns hmoves4.stack_eq ?_
      refine Leads.part_ret rfl hat4 GeneratingStream.runs_done hover fun st5 hmoves5 hat5 => ?_
      refine returns hmoves5.stack_eq ?_
      have hzero : (0 : Nat) ≠ p := Ne.symm h.other
      have hbase5 := hmoves5.at hzero (hmoves4.at hzero (hmoves3.at hzero hbase2))
      refine Leads.part_go rfl hbase5 fun ks' r' hls' hans' => ?_
      have hstate5 : st5.state = { st1.state with contSubscription := none } :=
        hmoves5.state.trans (hmoves4.state.trans (hmoves3.state.trans hmoves2.state))
      refine hnext _ old sub { bA with requested := bA.requested.add 1 } b ?_ rfl rB ks' r' _ hB
        (fun w hw => GeneratingStream.runs_sent
          (s := { bA with requested := bA.requested.add 1 }) hplace.running hw) hls' hans'
      refine ⟨?_, ?_, ?_, hbase5.lt, ?_, hplace.running, hplace.looping, hasked, rfl, ?_,
        (RequestBalance.hasRequests_iff _).mp hmore, h.running', h.looping', hleft⟩
      · rw [hstate5, hmoves.state]
        exact hplace.alive
      · rw [hstate5, hmoves.state]
        exact hplace.subscription
      · rw [hstate5]
      · intro p' hp'
        rcases hplace.old p' (congrArg some hp') with ⟨⟨hne, v', bK', hat'⟩, hcur⟩
        have hne' : p' ≠ p := fun heq => hcur (heq ▸ h.subscription)
        exact ⟨hne, v', bK', hmoves5.at hne' (hmoves4.at hne' (hmoves3.at hne' (hmoves2.at hne
          (hmoves.at hne' hat'))))⟩
      · rw [hstate5, hmoves.state]
        exact h.agree.demand

theorem ContTurn.goes (h : ContTurn SA SK st inside sub bA p v bK b)
    (hnext : BaseLoop SA SK bA.state) : ContGoes SA SK st inside sub p v bK b := by
  by_cases hmore : b.requested.hasRequests = true
  · cases hstate : bK.state with
    | cons y ys => exact h.value hmore hstate
    | nil =>
        by_cases hdone : (fs v).ending.code = .outOfRange
        · exact h.done hnext hmore hstate hdone
        · exact h.error hmore hstate hdone
  · rw [Bool.not_eq_true] at hmore
    exact h.rest hmore

/-- The base makes its status. -/
theorem BaseTurn.status (h : BaseTurn (e := e) SK st old sub bA b) (hstate : bA.state = []) :
    BaseGoes SA SK st sub bA b := by
  intro rB ks r rA hB hA hks hans
  have hmoreA : bA.requested.hasRequests = true := by
    rw [RequestBalance.hasRequests_iff, h.asked]
    exact Nat.one_pos
  rcases RequestBalance.remove_isSome _ ((RequestBalance.hasRequests_iff _).mp hmoreA)
    with ⟨cA, hcA⟩
  rcases RequestBalance.remove_isSome _ h.more with ⟨c, hc⟩
  have hleft := h.left
  rw [hstate, Listing.flatMap_nil] at hleft
  have hending : (e.flatMap fs).ending = e.ending := by
    have hsame := congrArg Listing.ending hleft
    exact hsame
  have hruns := hA _ (Listing.runs_status hstate hmoreA hcA)
  have hrunsB := hB _ (Listing.runs_status (congrArg Listing.values hleft)
    ((RequestBalance.hasRequests_iff _).mpr h.more) hc)
  have hstatus : (.status (e.flatMap fs).ending (e.flatMap fs).notOk : StatusOr R) =
      .status e.ending e.notOk := by simp only [hending]
  rw [hstatus] at hrunsB
  refine Leads.answer_out hans hruns h.lt ?_ fun st1 hmoves hat => ?_
  · exact fun hbroken => absurd hbroken.1 (by simp only [reduceCtorEq, not_false_eq_true])
  rw [hks] at hat
  -- the status is passed on, to the same stage
  refine .stop rfl ⟨_, hrunsB, .out _ _ _ _ _ ?_⟩
  have hstack : (.own .done :: st1.stack : List (Frame Point)) =
      .own .done :: .part 0 :: baseStack old sub :=
    congrArg _ (hmoves.stack_eq.trans (congrArg _ h.stack))
  have hold : old ≠ some 0 := fun heq => (h.older 0 heq).1 rfl
  refine .status _ old sub { bA with requested := cA } _ _ ?_ ?_ (hmoves.state ▸ h.current)
    h.running h.looping hstack h.running' h.looping'
  · simp only [streamProtocol, StatusOr.isEnd_status, if_true, ne_eq]
    by_cases hdone : (.status e.ending e.notOk : StatusOr R).isDone = true
    · simp only [hdone, if_true, reduceCtorEq, not_false_eq_true]
    · simp only [hdone, Bool.false_eq_true, if_false, reduceCtorEq, not_false_eq_true]
  · refine ⟨hmoves.state ▸ h.alive, hmoves.state ▸ h.subscription, hat, fun hq => hq,
        ?_, ?_, ?_, ?_⟩
    · change _ = calls 0 (.own .done :: st1.stack)
      rw [hstack, calls, calls_part, calls_baseStack hold, List.length_cons]
    · intro l hl
      rcases List.mem_cons.mp hl with rfl | hl
      · simp only [ne_eq, reduceCtorEq, not_false_eq_true]
      · exact bottomPoints_ne l hl
    · intro p' hp'
      have hnone : st1.state.contSubscription = none := hmoves.state ▸ h.current
      cases hnone.symm.trans hp'
    · intro p' hne _ hpos
      change 0 < calls p' (.own .done :: st1.stack) at hpos
      change _ ∧ calls p' (.own .done :: st1.stack) = 1
      rw [hstack, calls, calls_part_of_ne (Ne.symm hne)] at hpos ⊢
      by_cases heq : old = some p'
      · rcases h.older p' heq with ⟨_, v', bK', hat'⟩
        rw [heq, calls_baseStack_old hne]
        exact ⟨⟨hne, v', bK', hmoves.at hne hat'⟩, rfl⟩
      · rw [calls_baseStack_of_ne hne heq] at hpos
        exact absurd hpos (Nat.lt_irrefl 0)

/-- The base makes a value, for which a continuation is created. It is asked at
    once for what the subscriber has asked for. -/
theorem BaseTurn.value (h : BaseTurn (e := e) SK st old sub bA b) {x : T} {xs : List T}
    (hstate : bA.state = x :: xs) (hnext : BaseLoop SA SK xs) : BaseGoes SA SK st sub bA b := by
  intro rB ks r rA hB hA hks hans
  have hmoreA : bA.requested.hasRequests = true := by
    rw [RequestBalance.hasRequests_iff, h.asked]
    exact Nat.one_pos
  rcases RequestBalance.remove_isSome _ ((RequestBalance.hasRequests_iff _).mp hmoreA)
    with ⟨cA, hcA⟩
  have hserved : cA.balance = 0 := by
    have hlt : bA.requested.balance < kMax := by
      rw [h.asked, kMax]
      omega
    have hsub := RequestBalance.remove_of_lt _ _ _ hlt hcA
    rw [h.asked] at hsub
    omega
  have hleft := h.left
  rw [hstate, Listing.flatMap_cons] at hleft
  have hruns := hA _ (Listing.runs_value hstate hmoreA hcA)
  refine Leads.answer_out hans hruns h.lt ?_ fun st1 hmoves hat => ?_
  · exact fun hbroken => absurd hbroken.1 (by simp only [reduceCtorEq, not_false_eq_true])
  rw [hks] at hat
  have hcode : (component T R).said st1.views st1.state 0 none (.onNext (.value x)) =
      (st1.state, .make (some x) .subscribe .done) := by
    change st1.state.onNext (.value x) = _
    rw [hmoves.state]
    simp only [onNext, h.current, Option.isSome_none, Bool.false_eq_true, if_false]
  rw [hcode]
  -- the new part
  have hlength : st1.parts.length ≠ 0 := by
    rw [hmoves.length]
    exact Nat.ne_of_gt h.lt
  have hnew := At.create (N := N) (i := some x) (SK x) st1.parts
  have hsubscribe : (streamProtocol R True broken).allow .fresh .subscribe := rfl
  refine Leads.ask_out hnew hsubscribe rfl GeneratingStream.runs_subscribe ?_
    fun st2 hmoves2 hat2 => ?_
  · exact fun hbroken => absurd hbroken.1 (by simp only [streamProtocol, reduceCtorEq,
      not_false_eq_true])
  have hbalance : RequestBalance.zero.add b.requested.balance = b.requested := by
    ext
    have hle := b.requested.le_kMax
    rw [RequestBalance.balance_add, RequestBalance.balance_zero]
    omega
  have hcode2 : (component T R).said st2.views st2.state st1.parts.length (some x) .onSubscribe =
      ({ st1.state with contSubscription := some st1.parts.length, contRequested := b.requested },
        .ask st1.parts.length (.request b.requested.balance) .done) := by
    change st2.state.onSubscribeCont st1.parts.length = _
    have hdelta : (2 ^ 64 + b.requested.balance - 0) % 2 ^ 64 = b.requested.balance := by
      have hle := b.requested.le_kMax
      rw [kMax] at hle
      omega
    rw [hmoves2.state]
    simp only [hmoves.state, onSubscribeCont, h.alive, Bool.false_eq_true, if_false, h.demand,
      (RequestBalance.hasRequests_iff _).mpr h.more, if_true, request,
          RequestBalance.add_zero, delta,
      RequestBalance.balance_zero, hdelta, h.more, hbalance]
  rw [hcode2]
  have hallow : (streamProtocol R True broken).allow .live (.request b.requested.balance) := by
    refine ⟨?_, h.more, b.requested.le_kMax⟩
    simp only [ne_eq, reduceCtorEq, not_false_eq_true]
  refine Leads.ask hat2 rfl ?_
  refine Leads.ask_go hat2 hallow rfl fun ks' r' hls' hans' => ?_
  have hturn : ContTurn SA SK { st2 with
      state := { st1.state with
        contSubscription := some st1.parts.length, contRequested := b.requested }
      stack := .own .done :: st2.stack
      log := .ask st1.parts.length (.request b.requested.balance) :: st2.log } (some old) sub
      { bA with requested := cA, state := xs } st1.parts.length x
      { state := (fs x).values, requested := b.requested, generating := true } b := by
    refine ⟨?_, rfl, hlength, hat2.lt, rfl, rfl, ?_, ?_, h.running', h.looping', hleft⟩
    · refine ⟨?_, ?_, hmoves2.at (Ne.symm hlength) (hat.append _), h.running, h.looping,
          hserved, ?_⟩
      · exact hmoves.state ▸ h.alive
      · exact hmoves.state ▸ h.subscription
      · intro p' hp'
        rcases h.older p' (Option.some.inj hp') with ⟨hne, v', bK', hat'⟩
        have hat1 := hmoves.at hne hat'
        have hne' : p' ≠ st1.parts.length := Nat.ne_of_lt hat1.lt
        refine ⟨⟨hne, v', bK', hmoves2.at hne' (hat1.append _)⟩, ?_⟩
        exact fun heq => hne' (Option.some.inj heq).symm
    · exact ⟨hmoves.state ▸ h.demand, rfl, rfl⟩
    · have hstack1 : st1.stack = .part 0 :: baseStack old sub :=
        hmoves.stack_eq.trans (congrArg _ h.stack)
      change .own .done :: st2.stack = contStack _ (some old) sub
      rw [hmoves2.stack_eq]
      change .own .done :: .part _ :: .own .done :: st1.stack = contStack _ (some old) sub
      rw [hstack1, contStack]
  refine hturn.goes hnext rB ks' r' _ hB (fun w hw => ?_) hls' hans'
  refine GeneratingStream.runs_request rfl ?_
  rw [hbalance]
  exact hw

/-- Whatever is left of the base, from where its loop goes on the whole does what
    the flattened listing does. The induction is on the values that are left. -/
theorem base_loop (xs : List T) : BaseLoop SA SK xs := by
  induction xs with
  | nil => exact fun st old sub bA b h hstate => h.status hstate
  | cons x xs ih => exact fun st old sub bA b h hstate => h.value hstate ih

end Loops

section Turns

variable {SA SK} {st : St N} {inside : Option (Option Nat)} {old : Option Nat} {sub : Bool}
  {bA : GeneratingStream (List T)} {p : Nat} {v : T} {bK b : GeneratingStream (List R)}
  {q qK : StreamStage} {stack : List (Frame Point)}

/-- To add what is missing is to add all of it. -/
theorem add_difference (c : RequestBalance) (n : Nat) :
    c.add ((c.add n).balance - c.balance) = c.add n := by
  ext
  have hle := c.le_kMax
  simp only [RequestBalance.balance_add]
  omega

/-- The streams that are there when nothing goes on. -/
theorem Place.body (h : Place SA SK st none sub bA) (hcurrent : st.state.contSubscription = none) :
    Body SA SK st.state st.parts q (bottom sub) .live bA (bottomPoints sub) := by
  refine ⟨h.alive, h.subscription, h.base, ?_, (calls_bottom sub).symm, bottomPoints_ne, ?_, ?_⟩
  · simp only [reduceCtorEq, false_implies]
  · intro p hp
    cases hcurrent.symm.trans hp
  · intro p hne _ hpos
    rw [calls_bottom_of_ne hne] at hpos
    exact absurd hpos (Nat.lt_irrefl 0)

/-- The streams that are there when there is a continuation. -/
theorem Place.body_cont {ls : List GeneratingStream.Point} (h : Place SA SK st inside sub bA)
    (hnow : Now SK st p v qK bK ls) (hqK : qK = .live ∨ qK = .failed ∧ q = .failed)
    (hls : ∀ l ∈ ls, l ≠ .generate) (hcount : ls.length = calls p stack)
    (hothers : ∀ p', p' ≠ p → calls p' stack = calls p' (contStack p inside sub)) :
    Body SA SK st.state st.parts q stack .live bA (basePoints inside sub) := by
  have hzero : inside ≠ some (some 0) := fun heq => (h.old 0 heq).1.1 rfl
  refine ⟨h.alive, h.subscription, h.base, ?_, ?_, basePoints_ne, ?_, ?_⟩
  · simp only [reduceCtorEq, false_implies]
  · rw [hothers 0 (Ne.symm hnow.other), calls_contStack_base hnow.other hzero]
  · intro p' hp'
    rw [hnow.subscription, Option.some.injEq] at hp'
    subst hp'
    exact ⟨v, qK, bK, ls, hnow.cont, hnow.other, hnow.running, hqK, hcount, hls⟩
  · intro p' hne hcur hpos
    have hne' : p' ≠ p := fun heq => hcur (heq ▸ hnow.subscription)
    rw [hothers p' hne'] at hpos ⊢
    by_cases heq : inside = some (some p')
    · refine ⟨(h.old p' heq).1, ?_⟩
      rw [heq, calls_contStack_old hne hne']
    · rw [calls_contStack_of_ne hne hne' heq] at hpos
      exact absurd hpos (Nat.lt_irrefl 0)

/-- The streams that are there while an event of a continuation is handled. -/
theorem Place.body_sending {isEnd : Bool} {k : Point} (h : Place SA SK st inside sub bA)
    (hnow : Now SK st p v qK bK (.sent isEnd :: contPoints inside))
    (hstack : st.stack = .own k :: .part p :: contStack p inside sub)
    (hqK : qK = .live ∨ qK = .failed ∧ q = .failed) :
    Body SA SK st.state st.parts q st.stack .live bA (basePoints inside sub) := by
  have hold : inside ≠ some (some p) := fun heq => (h.old p heq).2 hnow.subscription
  rw [hstack]
  refine h.body_cont hnow hqK ?_ ?_ ?_
  · intro l hl
    rcases List.mem_cons.mp hl with rfl | hl
    · simp only [ne_eq, reduceCtorEq, not_false_eq_true]
    · exact contPoints_ne l hl
  · rw [calls, calls_part, calls_contStack_cont hnow.other hold, List.length_cons]
  · intro p' hne
    rw [calls, calls_part_of_ne (Ne.symm hne)]

/-- The balances after a request, and what is asked of the continuation. -/
theorem request_current {s : FlatMapStream} (hcurrent : s.contSubscription = some p)
    (hagree : s.contRequested = s.requestBalance) (n : Nat) :
    (s.request n : Result T R) =
      if 0 < (s.requestBalance.add n).balance - s.requestBalance.balance then
        ({ s with
            requestBalance := s.requestBalance.add n, contRequested := s.requestBalance.add n },
          .ask p (.request ((s.requestBalance.add n).balance - s.requestBalance.balance)) .done)
      else ({ s with requestBalance := s.requestBalance.add n }, .ret) := by
  rcases s with ⟨ended, rB, rb, base, current⟩
  simp only at hcurrent hagree
  subst hcurrent hagree
  have hdelta : (2 ^ 64 + (rb.add n).balance - rb.balance) % 2 ^ 64 =
      (rb.add n).balance - rb.balance := by
    have hle := (rb.add n).le_kMax
    have hge : rb.balance ≤ (rb.add n).balance := by
      have hle := rb.le_kMax
      rw [RequestBalance.balance_add]
      omega
    rw [kMax] at hle
    omega
  simp only [request, delta, hdelta, add_difference]

/-- The subscriber requests while nothing goes on, and the base is asked. -/
theorem idle_request (hplace : Place SA SK st none sub bA)
    (hcurrent : st.state.contSubscription = none) (hstack : st.stack = bottom sub)
    (hdemand : st.state.requestBalance = b.requested) (hserved : b.requested.balance = 0)
    (hrunning : b.hasEnded = false) (hidle : b.generating = false)
    (hleft : (e.flatMap fs).rest b.state = (e.rest bA.state).flatMap fs) (n : Nat) (hn : 1 ≤ n) :
    Leads subscriptionCheck
      (Goes SA SK .live (bottomReplies sub) ((e.flatMap fs).stream.call noViews b (.request n)))
      (Nest.call subscriptionCheck st (.request n)) := by
  have hcode : (component T R).call st.views st.state (.request n) =
      ({ st.state with requestBalance := b.requested.add n }, .ask 0 (.request 1) .done) := by
    change st.state.request n = _
    simp only [request, hcurrent, askBase, hplace.subscription, hdemand]
  have hgate : subscriptionCheck bA.hasEnded (.request 1) = none := by
    rw [hplace.running, subscriptionCheck_false]
  have hallow : (streamProtocol T late broken).allow .live (.request 1) := by
    refine ⟨?_, Nat.le_refl 1, ?_⟩
    · simp only [ne_eq, reduceCtorEq, not_false_eq_true]
    · rw [kMax]
      omega
  rw [Nest.call, hcode]
  refine Leads.ask hplace.base hgate ?_
  refine Leads.ask_go hplace.base hallow hgate fun ks r hls hans => ?_
  -- The loop of the base begins with one value owed.
  refine base_loop bA.state _ none sub
    { bA with requested := bA.requested.add 1, generating := true }
    { b with requested := b.requested.add n, generating := true } ?_ rfl _ ks r _
    (fun w hw => GeneratingStream.runs_request hidle hw)
    (fun w hw => GeneratingStream.runs_request hplace.looping hw) hls hans
  refine ⟨hplace.alive, hplace.subscription, hcurrent, hplace.base.lt, ?_, hplace.running, rfl, ?_,
    ?_, rfl, ?_, hrunning, rfl, hleft⟩
  · intro p hp
    cases hp
  · rw [RequestBalance.balance_add, hplace.served]
    rfl
  · exact congrArg (fun s => Frame.own Point.done :: Frame.env :: s) hstack
  · change 0 < (b.requested.add n).balance
    rw [RequestBalance.balance_add, hserved, kMax]
    omega

/-- He requests while a continuation is waiting. -/
theorem waiting_request (hplace : Place SA SK st none sub bA) (hnow : Now SK st p v .live bK [])
    (hquiet : bK.generating = false) (hstack : st.stack = bottom sub) (hagree : Accord st b bK)
    (hserved : b.requested.balance = 0) (hrunning : b.hasEnded = false)
    (hidle : b.generating = false)
    (hleft : (e.flatMap fs).rest b.state =
      ((fs v).rest bK.state).andThen ((e.rest bA.state).flatMap fs)) (n : Nat) (hn : 1 ≤ n) :
    Leads subscriptionCheck
      (Goes SA SK .live (bottomReplies sub) ((e.flatMap fs).stream.call noViews b (.request n)))
      (Nest.call subscriptionCheck st (.request n)) := by
  have hcode : (component T R).call st.views st.state (.request n) =
      ({ st.state with
          requestBalance := b.requested.add n, contRequested := b.requested.add n },
        .ask p (.request ((b.requested.add n).balance - b.requested.balance)) .done) := by
    change st.state.request n = _
    rw [request_current hnow.subscription (hagree.asked.trans hagree.demand.symm), hagree.demand,
      if_pos]
    rw [RequestBalance.balance_add, hserved, kMax]
    omega
  have hgate : subscriptionCheck bK.hasEnded
      (.request ((b.requested.add n).balance - b.requested.balance)) = none := by
    rw [hnow.running, subscriptionCheck_false]
  -- What the balance gains is asked of the continuation: one event at least.
  have hallow : (streamProtocol R True broken).allow .live
      (.request ((b.requested.add n).balance - b.requested.balance)) := by
    refine ⟨?_, ?_, Nat.le_trans (Nat.sub_le _ _) (b.requested.add n).le_kMax⟩
    · simp only [ne_eq, reduceCtorEq, not_false_eq_true]
    · rw [RequestBalance.balance_add, hserved, kMax]
      omega
  rw [Nest.call, hcode]
  refine Leads.ask hnow.cont hgate ?_
  refine Leads.ask_go hnow.cont hallow hgate fun ks r hls hans => ?_
  have hturn : ContTurn SA SK { st with
      state := { st.state with
        requestBalance := b.requested.add n, contRequested := b.requested.add n }
      stack := .own .done :: .env :: st.stack
      log := .ask p (.request ((b.requested.add n).balance - b.requested.balance)) ::
        .call (.request n) :: st.log } none sub bA p v
      { bK with requested := b.requested.add n, generating := true }
      { b with requested := b.requested.add n, generating := true } := by
    refine ⟨⟨hplace.alive, hplace.subscription, hplace.base, hplace.running, hplace.looping,
      hplace.served, ?_⟩, hnow.subscription, hnow.other, hnow.cont.lt, hnow.running, rfl,
      ⟨rfl, rfl, rfl⟩, ?_, hrunning, rfl, hleft⟩
    · intro p' hp'
      cases hp'
    · exact congrArg (fun s => Frame.own Point.done :: Frame.env :: s) hstack
  refine hturn.goes (base_loop bA.state) _ ks r _
    (fun w hw => GeneratingStream.runs_request hidle hw) (fun w hw => ?_) hls hans
  refine GeneratingStream.runs_request hquiet ?_
  rw [hagree.cont, add_difference]
  exact hw

/-- A part that is busy is asked for more, and the call returns to the
    environment. -/
theorem ask_busy {Inv : Nest.Result (component T R) N → Prop} {i : Option T}
    {x : Listing (Published T R i)} {given : Prop}
    {S : Simulation subscriptionCheck (streamProtocol (Published T R i) given broken)
        (N i) x.stream}
    {qS : StreamStage} {bS : GeneratingStream (List (Published T R i))}
    {ls : List GeneratingStream.Point} {m : FlatMapStream} {n : Nat}
    {rest : List (Frame Point)} (hat : At (N := N) S qS bS ls p st.parts)
    (hrunning : bS.hasEnded = false) (hloop : bS.generating = true) (hfresh : qS ≠ .fresh)
    (hn : 1 ≤ n) (hmax : n ≤ kMax) (hstack : st.stack = .env :: rest)
    (hfail : qS = .failed ∧ broken → ∀ st msg, Inv (st, .fail msg))
    (hnext : ∀ st', st'.state = m → st'.stack = rest →
      (∀ p', p' ≠ p → st'.parts[p']? = st.parts[p']?) →
      At (N := N) S qS { bS with requested := bS.requested.add n } ls p st'.parts →
      Inv (st', .ret)) :
    Leads subscriptionCheck Inv
      (perform subscriptionCheck st (m, .ask p (.request n) .done)) := by
  have hgate : subscriptionCheck bS.hasEnded (.request n) = none := by
    rw [hrunning, subscriptionCheck_false]
  refine Leads.ask hat hgate ?_
  refine Leads.ask_ret hat ⟨hfresh, hn, hmax⟩ hgate (GeneratingStream.runs_busy n hloop) hfail
    fun st' hmoves hat' => ?_
  refine returns (hmoves.stack_eq.trans (congrArg _ hstack)) (Leads.env rfl ?_)
  exact hnext _ hmoves.state rfl hmoves.others hat'

/-- The subscriber requests while it handles a value. -/
theorem value_request (hplace : Place SA SK st inside sub bA)
    (hnow : Now SK st p v .live bK (.sent false :: contPoints inside))
    (hloop : bK.generating = true)
    (hstack : st.stack = .own .done :: .part p :: contStack p inside sub)
    (hagree : Accord st b bK) (hrunning : b.hasEnded = false) (hloop' : b.generating = true)
    (hleft : (e.flatMap fs).rest b.state =
      ((fs v).rest bK.state).andThen ((e.rest bA.state).flatMap fs)) (n : Nat) :
    Leads subscriptionCheck
      (Goes SA SK .live ((.reply, .sent false) :: bottomReplies sub)
        ((e.flatMap fs).stream.call noViews b (.request n)))
      (Nest.call subscriptionCheck st (.request n)) := by
  have hrunsB : Runs (e.flatMap fs).stream ((e.flatMap fs).stream.call noViews b (.request n))
      ({ b with requested := b.requested.add n }, .ret) := GeneratingStream.runs_busy n hloop'
  have hend : ∀ st' : St N, st'.state = { st.state with
      requestBalance := b.requested.add n, contRequested := b.requested.add n } →
      st'.stack = st.stack → (∀ p', p' ≠ p → st'.parts[p']? = st.parts[p']?) →
      AtCont SK v .live { bK with requested := b.requested.add n }
          (.sent false :: contPoints inside)
        p st'.parts →
      Goes SA SK .live ((.reply, .sent false) :: bottomReplies sub)
        ((e.flatMap fs).stream.call noViews b (.request n)) (st', .ret) := by
    intro st' hstate hstack' hothers hat
    refine ⟨_, hrunsB, .ret _ _ ?_⟩
    refine .value inside sub bA p v { bK with requested := b.requested.add n } _ _ ?_ ?_ hloop
      (hstack'.trans hstack) ?_ hrunning hloop' hleft
    · exact hplace.keep hnow.subscription hnow.other (by rw [hstate]) (by rw [hstate])
        (by rw [hstate]) hothers
    · exact ⟨hstate ▸ hnow.subscription, hat, hnow.other, hnow.running⟩
    · exact ⟨by rw [hstate], by rw [hstate], rfl⟩
  have hcode : (component T R).call st.views st.state (.request n) = _ :=
    request_current (T := T) (R := R) hnow.subscription (hagree.asked.trans hagree.demand.symm) n
  rw [Nest.call, hcode, hagree.demand]
  by_cases hmore : 0 < (b.requested.add n).balance - b.requested.balance
  · rw [if_pos hmore]
    refine ask_busy hnow.cont hnow.running hloop ?_ hmore
      (Nat.le_trans (Nat.sub_le _ _) (b.requested.add n).le_kMax) rfl ?_
      fun st' hstate hstack' hothers hat => hend st' hstate hstack' hothers ?_
    · simp only [ne_eq, reduceCtorEq, not_false_eq_true]
    · exact fun hbroken => absurd hbroken.1 (by simp only [reduceCtorEq, not_false_eq_true])
    · rw [hagree.cont, add_difference] at hat
      exact hat
  · rw [if_neg hmore]
    have hsame : b.requested.add n = b.requested := by
      ext
      have hle := b.requested.le_kMax
      rw [RequestBalance.balance_add] at hmore ⊢
      omega
    refine Leads.ret (Leads.env rfl (hend _ ?_ rfl (fun p' _ => rfl) ?_))
    · rw [hsame, ← hagree.asked]
    · rw [hsame, ← hagree.cont]
      exact hnow.cont

/-- The streams that are there do not depend on the balances. -/
theorem Body.congr {fm fm' : FlatMapStream} {parts : List (Part N)} {qA : StreamStage}
    {ls : List GeneratingStream.Point} (h : Body SA SK fm parts q stack qA bA ls)
    (halive : fm'.hasEnded = fm.hasEnded) (hbase : fm'.baseSubscription = fm.baseSubscription)
    (hcurrent : fm'.contSubscription = fm.contSubscription) :
    Body SA SK fm' parts q stack qA bA ls := by
  refine ⟨halive.trans h.alive, hbase.trans h.subscription, h.base, h.stage, h.count, h.points, ?_,
    ?_⟩
  · rw [hcurrent]
    exact h.current
  · rw [hcurrent]
    exact h.others

/-- He requests while he handles the status of the base. -/
theorem status_request (hq : q ≠ .fresh)
    (hbody : Body SA SK st.state st.parts q st.stack q bA (.sent true :: bottomPoints sub))
    (hcurrent : st.state.contSubscription = none) (hrunning' : bA.hasEnded = false)
    (hloop : bA.generating = true)
    (hstack : st.stack = .own .done :: .part 0 :: baseStack old sub)
    (hrunning : b.hasEnded = false) (hloop' : b.generating = true) (n : Nat) :
    Leads subscriptionCheck
      (Goes SA SK q ((.reply, .sent true) :: bottomReplies sub)
        ((e.flatMap fs).stream.call noViews b (.request n)))
      (Nest.call subscriptionCheck st (.request n)) := by
  have hrunsB : Runs (e.flatMap fs).stream ((e.flatMap fs).stream.call noViews b (.request n))
      ({ b with requested := b.requested.add n }, .ret) := GeneratingStream.runs_busy n hloop'
  have hcode : (component T R).call st.views st.state (.request n) =
      ({ st.state with requestBalance := st.state.requestBalance.add n },
        .ask 0 (.request 1) .done) := by
    change st.state.request n = _
    simp only [request, hcurrent, askBase, hbody.subscription]
  have hmax : 1 ≤ kMax := by
    rw [kMax]
    omega
  rw [Nest.call, hcode]
  -- The base is in its last event and does not begin another.
  refine ask_busy hbody.base hrunning' hloop hq (Nat.le_refl 1) hmax rfl
    (fun hbroken st msg => ⟨_, hrunsB, .fail _ _ _ hbroken⟩) fun st' hstate hstack'
        hothers hat => ?_
  refine ⟨_, hrunsB, .ret _ _
    (.status q old sub { bA with requested := bA.requested.add 1 } _ _ hq ?_
    ?_ hrunning' hloop (hstack'.trans hstack) hrunning hloop')⟩
  · rw [hstate, hstack']
    exact (hbody.move hat hbody.stage id hbody.count hbody.points hothers fun p _ => rfl).congr
      rfl rfl rfl
  · rw [hstate]
    exact hcurrent

/-- He requests while he handles the error of a continuation. -/
theorem error_request (hplace : Place SA SK st inside sub bA)
    (hnow : Now SK st p v .failed bK (.sent true :: contPoints inside))
    (hloop : bK.generating = true)
    (hstack : st.stack = .own .terminate :: .part p :: contStack p inside sub)
    (hrunning : b.hasEnded = false) (hloop' : b.generating = true) (n : Nat) :
    Leads subscriptionCheck
      (Goes SA SK .failed ((.reply, .sent true) :: bottomReplies sub)
        ((e.flatMap fs).stream.call noViews b (.request n)))
      (Nest.call subscriptionCheck st (.request n)) := by
  have hrunsB : Runs (e.flatMap fs).stream ((e.flatMap fs).stream.call noViews b (.request n))
      ({ b with requested := b.requested.add n }, .ret) := GeneratingStream.runs_busy n hloop'
  have hend : ∀ (st' : St N) (bK' : GeneratingStream (List R)),
      st'.state.hasEnded = st.state.hasEnded →
      st'.state.baseSubscription = st.state.baseSubscription →
      st'.state.contSubscription = st.state.contSubscription → st'.stack = st.stack →
      (∀ p', p' ≠ p → st'.parts[p']? = st.parts[p']?) →
      AtCont SK v .failed bK' (.sent true :: contPoints inside) p st'.parts →
      bK'.hasEnded = false → bK'.generating = true →
      Goes SA SK .failed ((.reply, .sent true) :: bottomReplies sub)
        ((e.flatMap fs).stream.call noViews b (.request n)) (st', .ret) := by
    intro st' bK' halive hbase hcurrent hstack' hothers hat hrunK hloopK
    refine ⟨_, hrunsB, .ret _ _ (.error inside sub bA p v bK' _ _ ?_ ?_ hloopK
      (hstack'.trans hstack) hrunning hloop')⟩
    · exact hplace.keep hnow.subscription hnow.other halive hbase hcurrent hothers
    · exact ⟨hcurrent.trans hnow.subscription, hat, hnow.other, hrunK⟩
  -- the balances do not matter any more
  have hcode : (component T R).call st.views st.state (.request n) = st.state.request n := rfl
  rw [Nest.call, hcode]
  simp only [request, hnow.subscription]
  generalize hd : delta _ = d
  have hlt : d < 2 ^ 64 := by
    rw [← hd, delta]
    exact Nat.mod_lt _ (by decide)
  by_cases hmore : 0 < d
  · rw [if_pos hmore]
    refine ask_busy hnow.cont hnow.running hloop ?_ hmore ?_ rfl
      (fun hbroken st msg => ⟨_, hrunsB, .fail _ _ _ hbroken⟩)
      fun st' hstate hstack' hothers hat => hend st' _ (by rw [hstate]) (by rw [hstate])
        (by rw [hstate]; exact hnow.subscription.symm) hstack' hothers hat hnow.running hloop
    · simp only [ne_eq, reduceCtorEq, not_false_eq_true]
    · rw [kMax]
      omega
  · rw [if_neg hmore]
    exact Leads.ret (Leads.env rfl (hend _ bK rfl rfl hnow.subscription.symm rfl (fun p' _ => rfl)
      hnow.cont hnow.running hloop))

variable {ks : List (Nest.Point Call (Option T) Point (fun i => Signal (Published T R i)) ×
  GeneratingStream.Point)}

/-- He cancels. -/
theorem cancel_leads {qA : StreamStage} {ls : List GeneratingStream.Point}
    (hbody : Body SA SK st.state st.parts q st.stack qA bA ls) (hrunning : bA.hasEnded = false)
    (hallow : qA = .live ∨ qA = .failed ∧ late)
    (hunwinds : Unwinds (q = .failed ∧ broken) false st.stack ks) (hq : q ≠ .fresh) :
    Leads subscriptionCheck (Goes SA SK q ks ((e.flatMap fs).stream.call noViews b .cancel))
      (Nest.call subscriptionCheck st .cancel) := by
  have hrunsB : Runs (e.flatMap fs).stream ((e.flatMap fs).stream.call noViews b .cancel)
      ({ b with hasEnded := true }, .out .destroy .done) := GeneratingStream.runs_cancel
  have hcode : (component T R).call st.views st.state .cancel = st.state.askBase .cancel := rfl
  rw [Nest.call, hcode]
  have hbody' : Body SA SK st.state st.parts q (.env :: st.stack) qA bA ls :=
    ⟨hbody.alive, hbody.subscription, hbody.base, hbody.stage, hbody.count, hbody.points,
      hbody.current, hbody.others⟩
  exact cancel_base hbody' hrunning hallow (.env _ _ hunwinds) hq
    (fun hbroken st msg => ⟨_, hrunsB, .fail _ _ _ hbroken⟩)
    fun st' hdead => ⟨_, hrunsB, .out _ _ _ _ _ (.dead q st' _ _ hdead rfl)⟩

/-- He subscribes, and so does the stream to its base. -/
theorem subscribe_leads (hstate : st.state = {}) (hparts : st.parts = []) (hstack : st.stack = []) :
    Leads subscriptionCheck
      (Goes SA SK .fresh [] ((e.flatMap fs).stream.call noViews
        { state := (e.flatMap fs).values } .subscribe))
      (Nest.call subscriptionCheck st .subscribe) := by
  have hnew := At.create (N := N) (i := none) SA st.parts
  have hlength : st.parts.length = 0 := by
    rw [hparts]
    rfl
  have hcode : (component T R).call st.views st.state .subscribe =
      (st.state, .make none .subscribe .done) := rfl
  have hsubscribe : (streamProtocol T late broken).allow .fresh .subscribe := rfl
  rw [Nest.call, hcode]
  refine Leads.ask_out hnew hsubscribe rfl GeneratingStream.runs_subscribe ?_
    fun st1 hmoves hat => ?_
  · exact fun hbroken => absurd hbroken.1 (by simp only [streamProtocol, reduceCtorEq,
      not_false_eq_true])
  rw [hlength] at hat
  refine .stop rfl ⟨_, GeneratingStream.runs_subscribe, .out _ _ _ _ _ ?_⟩
  -- The base has confirmed, and nothing has been asked of it.
  refine .idle true { state := e.values } _ _ ?_ ?_ ?_ ?_ rfl rfl rfl rfl
  · refine ⟨?_, congrArg some hlength, hat, rfl, rfl, rfl, fun p hp => by cases hp⟩
    change st1.state.hasEnded = false
    rw [hmoves.state]
    change st.state.hasEnded = false
    rw [hstate]
  · change st1.state.contSubscription = none
    rw [hmoves.state]
    change st.state.contSubscription = none
    rw [hstate]
  · change .own .done :: st1.stack = bottom true
    rw [hmoves.stack_eq]
    change .own .done :: .part st.parts.length :: .own .done :: .env :: st.stack = bottom true
    rw [hlength, hstack]
    rfl
  · change st1.state.requestBalance = .zero
    rw [hmoves.state]
    change st.state.requestBalance = .zero
    rw [hstate]

/-- The handler of `OnSubscribe` returns. -/
theorem subscribed_leads {Inv : Nest.Result (component T R) N → Prop}
    {ls : List GeneratingStream.Point} (hstack : st.stack = bottom true)
    (hat : AtBase SA .live bA (.done :: ls) st.parts)
    (hnext : ∀ st', Moves 0 [] st st' → AtBase SA .live bA ls st'.parts → Inv (st', .ret)) :
    Leads subscriptionCheck Inv (back st) := by
  refine returns hstack (Leads.part_ret rfl hat GeneratingStream.runs_done ?_
    fun st' hmoves hat' => ?_)
  · exact fun hbroken => absurd hbroken.1 (by simp only [reduceCtorEq, not_false_eq_true])
  refine returns hmoves.stack_eq (Leads.env rfl (hnext _ ?_ hat'))
  exact ⟨hmoves.state, rfl, hmoves.others, hmoves.length⟩

/-- The handler of a value returns, and the loop of the continuation goes on. -/
theorem value_resume (hplace : Place SA SK st inside sub bA)
    (hnow : Now SK st p v .live bK (.sent false :: contPoints inside))
    (hloop : bK.generating = true)
    (hstack : st.stack = .own .done :: .part p :: contStack p inside sub)
    (hagree : Accord st b bK) (hrunning : b.hasEnded = false) (hloop' : b.generating = true)
    (hleft : (e.flatMap fs).rest b.state =
      ((fs v).rest bK.state).andThen ((e.rest bA.state).flatMap fs)) :
    Leads subscriptionCheck
      (Goes SA SK .live (bottomReplies sub)
        ((e.flatMap fs).stream.resume noViews b (.sent false))) (back st) := by
  refine returns hstack (Leads.part_go rfl hnow.cont fun ks r hls hans => ?_)
  have hturn : ContTurn SA SK { st with stack := contStack p inside sub } inside sub bA p v bK b :=
    ⟨⟨hplace.alive, hplace.subscription, hplace.base, hplace.running, hplace.looping,
      hplace.served, hplace.old⟩, hnow.subscription, hnow.other, hnow.cont.lt, hnow.running, hloop,
      ⟨hagree.demand, hagree.asked, hagree.cont⟩, rfl, hrunning, hloop', hleft⟩
  exact hturn.goes (base_loop bA.state) _ ks r _
    (fun w hw => GeneratingStream.runs_sent hrunning hw)
    (fun w hw => GeneratingStream.runs_sent hnow.running hw) hls hans

/-- The handler of the status of the base returns, and the base ends. -/
theorem status_resume (hq : q ≠ .fresh)
    (hbody : Body SA SK st.state st.parts q st.stack q bA (.sent true :: bottomPoints sub))
    (hrunning' : bA.hasEnded = false)
    (hstack : st.stack = .own .done :: .part 0 :: baseStack old sub)
    (hrunning : b.hasEnded = false) :
    Leads subscriptionCheck
      (Goes SA SK q (bottomReplies sub) ((e.flatMap fs).stream.resume noViews b (.sent true)))
      (back st) := by
  have hrunsB : Runs (e.flatMap fs).stream
      ((e.flatMap fs).stream.resume noViews b (.sent true))
      ({ b with hasEnded := true }, .out .destroy .done) := GeneratingStream.runs_last hrunning
  refine returns hstack (Leads.part_out rfl hbody.base (GeneratingStream.runs_last hrunning')
    (fun hbroken st msg => ⟨_, hrunsB, .fail _ _ _ hbroken⟩) fun st1 hmoves hat => ?_)
  -- The base has ended; what is left to cancel is a continuation.
  have hbody1 : Body SA SK st1.state st1.parts q st1.stack q { bA with hasEnded := true }
      (.done :: bottomPoints sub) := by
    rw [hmoves.state, hmoves.stack_eq]
    have hcount := hbody.count
    rw [hstack] at hcount
    refine hbody.move hat hbody.stage id hcount ?_ hmoves.others fun p hne => ?_
    · intro l hl
      rcases List.mem_cons.mp hl with rfl | hl
      · simp only [ne_eq, reduceCtorEq, not_false_eq_true]
      · exact bottomPoints_ne l hl
    · rw [hstack]
      rfl
  have hunwinds : Unwinds (T := T) (R := R) (q = .failed ∧ broken) true st1.stack
      (bottomReplies sub) := by
    rw [hmoves.stack_eq]
    exact .part 0 _ _ (unwinds_baseStack _ old sub)
  exact destructor_leads hbody1 rfl hunwinds hq
    (fun hbroken st msg => ⟨_, hrunsB, .fail _ _ _ hbroken⟩)
    fun st' hdead => ⟨_, hrunsB, .out _ _ _ _ _ (.dead q st' _ _ hdead rfl)⟩

/-- The handler of the error of a continuation returns, and the base is
    cancelled. -/
theorem error_resume (hplace : Place SA SK st inside sub bA)
    (hnow : Now SK st p v .failed bK (.sent true :: contPoints inside))
    (hstack : st.stack = .own .terminate :: .part p :: contStack p inside sub)
    (hrunning : b.hasEnded = false) :
    Leads subscriptionCheck
      (Goes SA SK .failed (bottomReplies sub)
        ((e.flatMap fs).stream.resume noViews b (.sent true))) (back st) := by
  have hrunsB : Runs (e.flatMap fs).stream
      ((e.flatMap fs).stream.resume noViews b (.sent true))
      ({ b with hasEnded := true }, .out .destroy .done) := GeneratingStream.runs_last hrunning
  -- The stream is still there, so `Terminate` cancels the base.
  have hcode : (component T R).resume st.views st.state .terminate = st.state.askBase .cancel := by
    change (if st.state.hasEnded then _ else _) = _
    rw [hplace.alive]
    rfl
  refine Leads.own hstack ?_
  rw [hcode]
  have hbody := hplace.body_sending hnow hstack (q := .failed) (Or.inr ⟨rfl, rfl⟩)
  rw [hstack] at hbody
  have hbody' : Body SA SK st.state st.parts .failed (.part p :: contStack p inside sub) .live bA
      (basePoints inside sub) :=
    ⟨hbody.alive, hbody.subscription, hbody.base, hbody.stage, hbody.count, hbody.points,
      hbody.current, hbody.others⟩
  have hunwinds : Unwinds (T := T) (R := R) (StreamStage.failed = .failed ∧ broken) true
      (.part p :: contStack p inside sub) (bottomReplies sub) :=
    .part p _ _ (unwinds_contStack _ p inside sub)
  have hne : StreamStage.failed ≠ .fresh := by simp only [ne_eq, reduceCtorEq, not_false_eq_true]
  exact cancel_base hbody' hplace.running (Or.inl rfl) hunwinds hne
    (fun hbroken st msg => ⟨_, hrunsB, .fail _ _ _ hbroken⟩)
    fun st' hdead => ⟨_, hrunsB, .out _ _ _ _ _ (.dead _ st' _ _ hdead rfl)⟩

/-- Whatever returns to a stream that is destroyed, everything else returns as
    well, but `Terminate` goes on with a stream that is not there. -/
theorem dead_resume {k : Nest.Point Call (Option T) Point (fun i => Signal (Published T R i))}
    {l : GeneratingStream.Point} (h : Dead SA SK q st ((k, l) :: ks)) (hended : b.hasEnded = true) :
    k = .reply ∧ Leads subscriptionCheck
      (Goes SA SK q ks ((e.flatMap fs).stream.resume noViews b l)) (back st) := by
  rcases h with ⟨hdead, hstage, hunwinds, hsettled⟩
  cases hstack : st.stack with
  | nil =>
      rw [hstack] at hunwinds
      cases hunwinds
  | cons f rest =>
      rw [hstack] at hunwinds
      cases hunwinds with
      | reply k' _ _ _ hk hl hrest =>
          refine ⟨rfl, ?_⟩
          have hrunsB := runs_dead (x := e.flatMap fs) hended hl
          -- A method that waits has nothing left to do, unless it is `Terminate`.
          rcases hk with rfl | ⟨rfl, hlate⟩
          · refine returns hstack (unwind hrest _ rfl rfl hdead hstage ?_
              (fun hbroken st msg => ⟨_, hrunsB, .fail _ _ _ hbroken⟩)
              fun st' hdead' => ⟨_, hrunsB, .ret _ _ (.dead q st' b _ hdead' hended)⟩)
            rw [hstack] at hsettled
            exact hsettled
          · refine Leads.own hstack ?_
            have hcode : (component T R).resume st.views st.state .terminate =
                (st.state, .fail useAfterFree) := by
              change (if st.state.hasEnded then _ else _) = _
              rw [hdead]
              rfl
            rw [hcode]
            exact .stop rfl ⟨_, hrunsB, .fail _ _ _ hlate⟩

end Turns

section Simulation

variable {SA SK} {q : StreamStage} {st : St N} {b : GeneratingStream (List R)}
  {ks : List (Nest.Point Call (Option T) Point (fun i => Signal (Published T R i)) ×
    GeneratingStream.Point)}

/-- What is read of the whole. -/
theorem Tracks.look (h : Tracks SA SK q st b ks) : st.state.hasEnded = b.hasEnded := by
  cases h with
  | fresh _ hstate => rw [hstate]
  | idle sub bA _ _ hplace _ _ _ _ hrunning => rw [hplace.alive, hrunning]
  | waiting sub bA p v bK _ _ hplace _ _ _ _ _ hrunning => rw [hplace.alive, hrunning]
  | value inside sub bA p v bK _ _ hplace _ _ _ _ hrunning => rw [hplace.alive, hrunning]
  | status _ old sub bA _ _ _ hbody _ _ _ _ hrunning => rw [hbody.alive, hrunning]
  | error inside sub bA p v bK _ _ hplace _ _ _ hrunning => rw [hplace.alive, hrunning]
  | dead _ _ _ _ hdead hended => rw [hdead.ended, hended]

/-- A request is answered as by the flattened listing. -/
theorem Tracks.request (h : Tracks SA SK q st b ks) (n : Nat) (hfresh : q ≠ .fresh) (hn : 1 ≤ n)
    (hgate : subscriptionCheck st.state.hasEnded (.request n) = none) :
    Leads subscriptionCheck (Goes SA SK q ks ((e.flatMap fs).stream.call noViews b (.request n)))
      (Nest.call subscriptionCheck st (.request n)) := by
  cases h with
  | fresh => exact absurd rfl hfresh
  | idle sub bA _ _ hplace hcurrent hstack hdemand hserved hrunning hidle hleft =>
      exact idle_request hplace hcurrent hstack hdemand hserved hrunning hidle hleft n hn
  | waiting sub bA p v bK _ _ hplace hnow hquiet hstack hagree hserved hrunning hidle hleft =>
      exact waiting_request hplace hnow hquiet hstack hagree hserved hrunning hidle hleft n hn
  | value inside sub bA p v bK _ _ hplace hnow hloop hstack hagree hrunning hloop' hleft =>
      exact value_request hplace hnow hloop hstack hagree hrunning hloop' hleft n
  | status _ old sub bA _ _ hq hbody hcurrent hrunning' hloop hstack hrunning hloop' =>
      exact status_request hq hbody hcurrent hrunning' hloop hstack hrunning hloop' n
  | error inside sub bA p v bK _ _ hplace hnow hloop hstack hrunning hloop' =>
      exact error_request hplace hnow hloop hstack hrunning hloop' n
  | dead _ _ _ _ hdead _ => simp only [hdead.ended, subscriptionCheck, if_true,
      reduceCtorEq] at hgate

/-- So is a cancellation, which may come late if that breaks a promise. -/
theorem Tracks.cancel (h : Tracks SA SK q st b ks) (hlate : late → broken)
    (hallow : q = .live ∨ q = .failed ∧ late)
    (hgate : subscriptionCheck st.state.hasEnded .cancel = none) :
    Leads subscriptionCheck (Goes SA SK q ks ((e.flatMap fs).stream.call noViews b .cancel))
      (Nest.call subscriptionCheck st .cancel) := by
  have hsent : ∀ isEnd : Bool, (GeneratingStream.Point.sent isEnd) ≠ .generate := by
    simp only [ne_eq, reduceCtorEq, not_false_eq_true, implies_true]
  have hlive : StreamStage.live ≠ .fresh := by simp only [ne_eq, reduceCtorEq, not_false_eq_true]
  cases h with
  | fresh =>
      rcases hallow with hlive | hfailed
      · cases hlive
      · cases hfailed.1
  | idle sub bA _ _ hplace hcurrent hstack _ _ _ _ _ =>
      refine cancel_leads (hstack ▸ hplace.body hcurrent) hplace.running (Or.inl rfl) ?_ hlive
      rw [hstack]
      exact unwinds_bottom _ sub
  | waiting sub bA p v bK _ _ hplace hnow _ hstack _ _ _ _ _ =>
      have hbody : Body SA SK st.state st.parts .live st.stack .live bA (basePoints none sub) := by
        rw [hstack]
        exact hplace.body_cont hnow (Or.inl rfl) (fun l hl => absurd hl List.not_mem_nil)
          (calls_bottom_of_ne hnow.other sub).symm fun p' _ => rfl
      refine cancel_leads hbody hplace.running (Or.inl rfl) ?_ hlive
      rw [hstack]
      exact unwinds_bottom _ sub
  | value inside sub bA p v bK _ _ hplace hnow _ hstack _ _ _ _ =>
      refine cancel_leads (hplace.body_sending hnow hstack (Or.inl rfl)) hplace.running (Or.inl rfl)
        ?_ hlive
      rw [hstack]
      exact .reply .done _ _ _ (Or.inl rfl) (hsent false)
        (.part p _ _ (unwinds_contStack _ p inside sub))
  | status _ old sub bA _ _ hq hbody _ hrunning' _ hstack _ _ =>
      refine cancel_leads hbody hrunning' hallow ?_ hq
      rw [hstack]
      exact .reply .done _ _ _ (Or.inl rfl) (hsent true) (.part 0 _ _ (unwinds_baseStack _ old sub))
  -- Here the cancellation comes after an error, and breaks the promise.
  | error inside sub bA p v bK _ _ hplace hnow _ hstack _ _ =>
      have hgiven : broken := hlate (hallow.resolve_left (by
        simp only [reduceCtorEq, not_false_eq_true])).2
      refine cancel_leads (hplace.body_sending hnow hstack (Or.inr ⟨rfl, rfl⟩)) hplace.running
        (Or.inl rfl) ?_ (by simp only [ne_eq, reduceCtorEq, not_false_eq_true])
      rw [hstack]
      exact .reply .terminate _ _ _ (Or.inr ⟨rfl, rfl, hgiven⟩) (hsent true)
        (.part p _ _ (unwinds_contStack _ p inside sub))
  | dead _ _ _ _ hdead _ => simp only [hdead.ended, subscriptionCheck, if_true,
      reduceCtorEq] at hgate

/-- The environment returns. -/
theorem Tracks.resume {k : Nest.Point Call (Option T) Point (fun i => Signal (Published T R i))}
    {l : GeneratingStream.Point} (h : Tracks SA SK q st b ((k, l) :: ks)) :
    k = .reply ∧ Leads subscriptionCheck
      (Goes SA SK q ks ((e.flatMap fs).stream.resume noViews b l)) (back st) := by
  generalize hks : (k, l) :: ks = ks' at h
  -- Who waits on top of the stack decides which loop goes on.
  cases h with
  | fresh => cases hks
  | idle sub bA _ _ hplace hcurrent hstack hdemand hserved hrunning hidle hleft =>
      cases sub with
      | false => cases hks
      | true =>
          rcases List.cons.inj hks with ⟨hpoint, rfl⟩
          rcases Prod.mk.inj hpoint with ⟨rfl, rfl⟩
          refine ⟨rfl, subscribed_leads hstack hplace.base fun st' hmoves hat => ?_⟩
          refine ⟨_, GeneratingStream.runs_done, .ret _ _ (.idle false bA st' b ?_
            (hmoves.state ▸ hcurrent) hmoves.stack_eq (hmoves.state ▸ hdemand) hserved
                hrunning hidle
            hleft)⟩
          exact ⟨hmoves.state ▸ hplace.alive, hmoves.state ▸ hplace.subscription, hat,
            hplace.running, hplace.looping, hplace.served, fun p hp => by cases hp⟩
  | waiting sub bA p v bK _ _ hplace hnow hquiet hstack hagree hserved hrunning hidle hleft =>
      cases sub with
      | false => cases hks
      | true =>
          rcases List.cons.inj hks with ⟨hpoint, rfl⟩
          rcases Prod.mk.inj hpoint with ⟨rfl, rfl⟩
          refine ⟨rfl, subscribed_leads hstack hplace.base fun st' hmoves hat => ?_⟩
          refine ⟨_, GeneratingStream.runs_done, .ret _ _ (.waiting false bA p v bK st' b ?_ ?_
            hquiet hmoves.stack_eq ?_ hserved hrunning hidle hleft)⟩
          · exact ⟨hmoves.state ▸ hplace.alive, hmoves.state ▸ hplace.subscription, hat,
              hplace.running, hplace.looping, hplace.served, fun p hp => by cases hp⟩
          · exact ⟨hmoves.state ▸ hnow.subscription, hmoves.at hnow.other hnow.cont, hnow.other,
              hnow.running⟩
          · exact ⟨hmoves.state ▸ hagree.demand, hmoves.state ▸ hagree.asked, hagree.cont⟩
  | value inside sub bA p v bK _ _ hplace hnow hloop hstack hagree hrunning hloop' hleft =>
      rcases List.cons.inj hks with ⟨hpoint, rfl⟩
      rcases Prod.mk.inj hpoint with ⟨rfl, rfl⟩
      exact ⟨rfl, value_resume hplace hnow hloop hstack hagree hrunning hloop' hleft⟩
  | status _ old sub bA _ _ hq hbody hcurrent hrunning' hloop hstack hrunning hloop' =>
      rcases List.cons.inj hks with ⟨hpoint, rfl⟩
      rcases Prod.mk.inj hpoint with ⟨rfl, rfl⟩
      exact ⟨rfl, status_resume hq hbody hrunning' hstack hrunning⟩
  | error inside sub bA p v bK _ _ hplace hnow hloop hstack hrunning hloop' =>
      rcases List.cons.inj hks with ⟨hpoint, rfl⟩
      rcases Prod.mk.inj hpoint with ⟨rfl, rfl⟩
      exact ⟨rfl, error_resume hplace hnow hstack hrunning⟩
  | dead _ _ _ _ hdead hended =>
      subst hks
      exact dead_resume hdead hended

end Simulation

/-- `FlatMap` stands for the flattened listing if its base stream and its
    continuations stand for theirs. It cancels a continuation that has published
    an error, and gives up where it is cancelled so itself. -/
def simulation (hlate : late → broken) :
    Simulation subscriptionCheck (streamProtocol R late broken) (closed N)
      (e.flatMap fs).stream where
  Rel := Tracks SA SK
  start := .fresh _ rfl rfl rfl
  look _ _ _ _ h := h.look
  call := by
    intro q st b ks c h hallow hgate
    refine Leads.answers ?_
    cases c with
    | subscribe =>
        cases h with
        | fresh _ hstate hparts hstack => exact subscribe_leads hstate hparts hstack
        | idle => cases hallow
        | waiting => cases hallow
        | value => cases hallow
        | status _ _ _ _ _ _ hq => exact absurd hallow hq
        | error => cases hallow
        | dead _ _ _ _ hdead => exact absurd hallow hdead.stage
    | request n => exact h.request n hallow.1 hallow.2.1 hgate
    | cancel => exact h.cancel hlate hallow hgate
  resume := by
    intro q st b k l ks h
    rcases h.resume with ⟨rfl, hleads⟩
    exact Leads.answers hleads

end FlatMapStream

end RxCppUniq
