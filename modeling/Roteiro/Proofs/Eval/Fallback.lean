import Roteiro.Proofs.Eval.Congruence

/-!
The evaluator with its failure branches in the open. Here and there the evaluator relies on what was
done before: it closes a frame that it has opened, it reads a name that it has defined, and on the
last level of the cascade of operators it meets no operator. Each of these places has a branch for
the case that this fails, and here the branch is left to a fallback. With the fallback that raises
the errors the evaluator is what it was (`Observer.unaltered`).
-/

namespace Roteiro

open Eval

variable {σ α β : Type}

/-- What the evaluator relies on. -/
inductive Reliance where
  /-- The last level of the cascade is given no operator. -/
  | handled
  /-- The frame of a round is there when the round ends. -/
  | roundFrame
  /-- The frame of a call is there when the call ends. -/
  | callFrame
  /-- A counter that is unknown can be defined. -/
  | counterDefined
  /-- A counter can be given its first value. -/
  | counterSet
  /-- A counter has a value in each round. -/
  | counterRead
  /-- The first name of a loop over a collection can be defined. -/
  | keyDefined
  /-- The second name can be defined if it is another. -/
  | valueDefined
  /-- The first name can be set in each round. -/
  | keySet
  /-- The second name can be set in each round. -/
  | valueSet
  deriving Repr, DecidableEq

/-- What is done where the evaluator has relied on something in vain. The error is the one that it
ends with by itself. -/
abbrev Fallback (σ : Type) := Reliance → RuntimeError → ∀ α : Type, Eval σ α

/-- The fallback that ends with the error. -/
def Fallback.raising : Fallback σ := fun _ e _ => raise e.fault e.span

namespace Eval

/-! ### effects that are relied on -/

/-- Does something in the world; in place of a fault at the span there is the fallback. -/
def expect (span : Span) (effect : Effect α) (otherwise : RuntimeError → Eval σ α) : Eval σ α :=
  fun m =>
    match effect m.world with
    | (.ok a, world) => (.ok a, { m with world })
    | (.error fault, world) => otherwise ⟨fault, span⟩ { m with world }

/-- Runs `body` and then closes what was opened for it; in place of a fault of closing there is the
fallback. The error of the body, if it has one, goes before that of closing. -/
def closingOr (span : Span) (body : Eval σ α) (close : Effect β)
    (otherwise : RuntimeError → Eval σ β) : Eval σ β :=
  fun m =>
    match body m with
    | (.ok _, m) => expect span close otherwise m
    | (.error e, m) =>
      (expect span close fun _ => otherwise e).bind (fun _ => raise e.fault e.span) m
    | (.exhausted, m) => (.exhausted, { m with world := (close m.world).2 })
    | (.aborted, m) => (.aborted, m)

/-- Runs an evaluation in a scope and a loop frame of its own. -/
def inRoundOr (otherwise : RuntimeError → Eval σ LoopFrame) (c : ContextId) (span : Span)
    (inner : Eval σ α) : Eval σ LoopFrame := do
  openScope c
  change (World.update c Context.pushLoop)
  closingOr span inner
    (fun w =>
      let (frame, w) := w.popLoop c
      (frame, w.leaveScope c))
    otherwise

/-- Runs an evaluation in a new context with a call frame. -/
def inCallOr (otherwise : RuntimeError → Eval σ (List Value)) (parent : ContextId) (span : Span)
    (inner : ContextId → Eval σ α) : Eval σ (List Value) := do
  let c ← make (World.newChild parent)
  change (World.update c Context.pushCall)
  closingOr span (inner c) (World.popCall c) otherwise

/-- Runs one round of a loop. -/
def roundOr (otherwise : RuntimeError → Eval σ LoopFrame) (execute : Statement → Eval σ Value)
    (c : ContextId) (span : Span) (statements : List Statement) (step : Option (Eval σ Value)) :
    Eval σ Bool := do
  let frame ← inRoundOr otherwise c span do
    body execute c statements
    afterBody c step
  ask fun w => !frame.broken && !(w.context c).hasReturned

/-- Calls a function. -/
def callClosureOr (otherwise : RuntimeError → Eval σ (List Value))
    (execute : Statement → ContextId → Eval σ Value) (f : Closure) (arguments : List Value)
    (span : Span) : Eval σ Value := do
  let returned ← inCallOr otherwise f.context span fun c => do
    parameters c f.routine.parameters arguments
    body (fun s => execute s c) c f.routine.body
  pure (returned.headD .null)

/-- Defines the second name of a loop over a collection. That it is the first once more is an error
of the script; in place of any other fault there is the fallback. -/
def defineSecond (first second : Ident) (c : ContextId) (otherwise : RuntimeError → Eval σ Unit) :
    Eval σ Unit :=
  expect second.span (World.define c second.text .null) fun e =>
    if first.text = second.text then raise (.alreadyDefined second.text) second.span
    else otherwise e

/-! ### the cascade -/

/-- What is done with an operator, and the tier on which it is done. -/
def operation? (evaluate : Expression → Eval σ Value) : Expression → Option (Tier × Eval σ Value)
  | .binary op left right span =>
    some (op.tier, do
      let a ← operand evaluate op left
      let b ← operand evaluate op right
      require span (Value.apply op a b))
  | _ => none

end Eval

/-- Hands a node down the levels of the cascade until it is on the tier of its operation. Each level
shows the node to the observer; below the last there is `factor`. -/
def Observer.cascade (o : Observer σ) (node : Node) (c : ContextId)
    (operation : Option (Tier × Eval σ Value)) (factor : Eval σ Value) : List Tier → Eval σ Value
  | [] => o.capture node c factor
  | t :: ts =>
    o.capture node c <|
      match operation with
      | some (tier, x) => if tier = t then x else o.cascade node c operation factor ts
      | .none => o.cascade node c operation factor ts

/-- The tiers of operators, loosest first. -/
def Tier.all : List Tier := [.logical, .comparison, .additive, .multiplicative]

/-- **An operator does not reach the end of the cascade**, and all other expressions do. -/
theorem Observer.cascade_eq (o : Observer σ) (c : ContextId) (evaluate : Expression → Eval σ Value)
    (factor : Eval σ Value) (e : Expression) :
    o.capture (.expression e) c
        (o.cascade (.expression e) c (operation? evaluate e) factor Tier.all) =
      o.captureTimes e.captures (.expression e) c (((operation? evaluate e).map Prod.snd).getD factor)
        := by
  cases e with
  | binary op left right span =>
    cases tier : op.tier with
    | logical => simp [Tier.all, cascade, captureTimes, operation?, Expression.captures, tier]
    | comparison => simp [Tier.all, cascade, captureTimes, operation?, Expression.captures, tier]
    | additive => simp [Tier.all, cascade, captureTimes, operation?, Expression.captures, tier]
    | multiplicative => simp [Tier.all, cascade, captureTimes, operation?, Expression.captures, tier]
  | _ => rfl

/-! ### the evaluator -/

mutual

/-- The value of an expression. -/
def evaluateOr (alt : Fallback σ) (o : Observer σ) : Nat → Expression → ContextId → Eval σ Value
  | 0, _, _ => Eval.exhausted
  | fuel + 1, e, c =>
    o.capture (.expression e) c <|
      o.cascade (.expression e) c (operation? (fun e => evaluateOr alt o fuel e c) e)
        (match e with
          | .atom a span => Eval.atom a span c
          | .array items _ => do
            let vs ← Eval.all (fun e => evaluateOr alt o fuel e c) items
            make (World.newArray vs.toArray)
          | .dictionary entries _ => do
            let d ← Eval.entries (fun e => evaluateOr alt o fuel e c) .empty entries
            make (World.newDictionary d)
          | .function routine => make (World.newFunction ⟨routine, c⟩)
          | .negate operand span => do
            let v ← evaluateOr alt o fuel operand c
            require span v.negate
          | .binary op left right span =>
            alt .handled ⟨.unreachableNode (Expression.binary op left right span).text, span⟩ Value
          | .call callee arguments span => do
            let f ← evaluateOr alt o fuel callee c
            let vs ← Eval.all (fun e => evaluateOr alt o fuel e c) arguments
            match f with
            | .function _ closure =>
              callClosureOr (fun e => alt .callFrame e (List Value)) (executeOr alt o fuel) closure
                vs span
            | .native _ b =>
              if b.breaksOff vs then Eval.aborted else perform span (World.callBuiltin b vs)
            | v => raise (.notCallable v.type) span
          | .property object key span => do
            let x ← evaluateOr alt o fuel object c
            let k ← evaluateOr alt o fuel key c
            perform span (World.property x k))
        Tier.all

/-- Carries out a statement and returns its value. -/
def executeOr (alt : Fallback σ) (o : Observer σ) : Nat → Statement → ContextId → Eval σ Value
  | 0, _, _ => Eval.exhausted
  | fuel + 1, s, c =>
    o.capture (.statement s) c <|
      match s with
      | .declaration name value _ => do
        let v ← evaluateOr alt o fuel value c
        perform name.span (World.define c name.text v)
        pure v
      | .assignment a => Eval.assign (fun e => evaluateOr alt o fuel e c) c a
      | .expression e => evaluateOr alt o fuel e c
      | .block body span => do
        inScope c span (Eval.body (fun s => executeOr alt o fuel s c) c body)
        pure .null
      | .whileLoop condition body _ => do
        whileRoundsOr alt o fuel condition body c
        pure .null
      | .countLoop counter first limit step body span => do
        inScope c span do
          if !(← ask fun w => w.knows c counter.text) then
            expect counter.span (World.define c counter.text (.number 0))
              fun e => alt .counterDefined e Unit
          match first with
          | none => pure ()
          | some e =>
            let v ← evaluateOr alt o fuel e c
            expect counter.span (World.assign c counter.text v) fun e => alt .counterSet e Unit
          countRoundsOr alt o fuel counter limit step body c
        pure .null
      | .eachLoop key value collection body span => do
        let v ← evaluateOr alt o fuel collection c
        let it ← perform collection.span fun w => (w.heap.iterate v, w)
        inScope c span do
          expect key.span (World.define c key.text .null) fun e => alt .keyDefined e Unit
          defineSecond key value c fun e => alt .valueDefined e Unit
          eachRoundsOr alt o fuel it key value collection.span body c
        pure .null
      | .function routine => do
        let f ← make (World.newFunction ⟨routine, c⟩)
        match routine.name with
        | none => pure ()
        | some name => perform name.span (World.define c name.text f)
        pure f
      | .conditional branches otherwise span => do
        match ← Eval.choose (fun e => evaluateOr alt o fuel e c) otherwise branches with
        | none => pure ()
        | some body => inScope c span (Eval.body (fun s => executeOr alt o fuel s c) c body)
        pure .null
      | .breakLoop span => do
        perform span (World.onContext c Context.markBreak)
        pure .null
      | .continueLoop span => do
        perform span (World.onContext c Context.markContinue)
        pure .null
      | .returnValues values span => do
        let vs ← Eval.all (fun e => evaluateOr alt o fuel e c) values
        let returned := if vs.isEmpty then [.null] else vs
        perform span (World.onContext c (·.pushReturns returned))
        pure .null

/-- The rounds of a loop under a condition. -/
def whileRoundsOr (alt : Fallback σ) (o : Observer σ) :
    Nat → Expression → List Statement → ContextId → Eval σ Unit
  | 0, _, _, _ => Eval.exhausted
  | fuel + 1, condition, body, c => do
    let v ← evaluateOr alt o fuel condition c
    if ← require condition.span v.truth then
      if ← roundOr (fun e => alt .roundFrame e LoopFrame) (fun s => executeOr alt o fuel s c) c
          condition.span body none then
        whileRoundsOr alt o fuel condition body c

/-- The rounds of a loop over a counter. -/
def countRoundsOr (alt : Fallback σ) (o : Observer σ) : Nat → Ident → Option Expression →
    Option Assignment → List Statement → ContextId → Eval σ Unit
  | 0, _, _, _, _, _ => Eval.exhausted
  | fuel + 1, counter, limit, step, body, c => do
    let more ←
      match limit with
      | none => pure true
      | some e => do
        let v ← evaluateOr alt o fuel e c
        let current ← expect counter.span (World.lookup c counter.text)
          fun e => alt .counterRead e Value
        require e.span (shortOf current v)
    if more then
      let after := step.map (Eval.assign (fun e => evaluateOr alt o fuel e c) c)
      if ← roundOr (fun e => alt .roundFrame e LoopFrame) (fun s => executeOr alt o fuel s c) c
          counter.span body after then
        countRoundsOr alt o fuel counter limit step body c

/-- The rounds of a loop over a collection. -/
def eachRoundsOr (alt : Fallback σ) (o : Observer σ) : Nat → Iteration → Ident → Ident → Span →
    List Statement → ContextId → Eval σ Unit
  | 0, _, _, _, _, _, _ => Eval.exhausted
  | fuel + 1, it, key, value, span, body, c => do
    let (entry, it) ← ask fun w => w.heap.advance it
    match entry with
    | none => pure ()
    | some (k, v) =>
      expect key.span (World.assign c key.text k) fun e => alt .keySet e Unit
      expect value.span (World.assign c value.text v) fun e => alt .valueSet e Unit
      if ← roundOr (fun e => alt .roundFrame e LoopFrame) (fun s => executeOr alt o fuel s c) c span
          body none then
        eachRoundsOr alt o fuel it key value span body c

end

/-- The value of running all remaining statements of a session. -/
def Session.restOr (alt : Fallback σ) (o : Observer σ) (fuel : Nat) (s : Session) : Eval σ Value :=
  o.capture (.program s.program) s.context
    (runStatements (fun st => executeOr alt o fuel st s.context) .null s.remaining)

/-! ### raising the errors -/

namespace Eval

theorem expect_raising (span : Span) (effect : Effect α) :
    expect span effect (fun e => raise e.fault e.span) = (perform span effect : Eval σ α) := by
  funext m
  unfold expect perform
  rcases effect m.world with ⟨fault | a, w⟩
  · rfl
  · rfl

theorem closingOr_raising (span : Span) (body : Eval σ α) (close : Effect β) :
    closingOr span body close (fun e => raise e.fault e.span) = closing span body close := by
  funext m
  unfold closingOr closing
  rcases body m with ⟨a | e | _ | _, m'⟩
  · exact congrFun (expect_raising span close) m'
  · unfold expect Eval.bind
    dsimp only
    rcases close m'.world with ⟨fault | b, w⟩
    · rfl
    · rfl
  · rfl
  · rfl

theorem inRoundOr_raising (c : ContextId) (span : Span) (x : Eval σ α) :
    inRoundOr (fun e => raise e.fault e.span) c span x = inRound c span x := by
  unfold inRoundOr inRound
  rw [closingOr_raising]

theorem inCallOr_raising (parent : ContextId) (span : Span) (x : ContextId → Eval σ α) :
    inCallOr (fun e => raise e.fault e.span) parent span x = inCall parent span x := by
  unfold inCallOr inCall
  simp only [closingOr_raising]

theorem roundOr_raising (execute : Statement → Eval σ Value) (c : ContextId) (span : Span)
    (ss : List Statement) (step : Option (Eval σ Value)) :
    roundOr (fun e => raise e.fault e.span) execute c span ss step =
      round execute c span ss step := by
  unfold roundOr
  rw [inRoundOr_raising, round_eq]

theorem callClosureOr_raising (execute : Statement → ContextId → Eval σ Value) (f : Closure)
    (vs : List Value) (span : Span) :
    callClosureOr (fun e => raise e.fault e.span) execute f vs span =
      callClosure execute f vs span := by
  unfold callClosureOr
  rw [inCallOr_raising, callClosure_eq]

/-- A name cannot be defined only because it is there. -/
theorem World.define_error {c : ContextId} {name : String} {v : Value} {w w' : World}
    {fault : RuntimeFault} (failed : World.define c name v w = (.error fault, w')) :
    fault = .alreadyDefined name := by
  unfold World.define World.onContexts Contexts.define Context.define at failed
  dsimp only at failed
  split at failed
  · cases failed
  · next refused =>
    cases failed
    split at refused
    · cases refused
      rfl
    · cases refused

theorem defineSecond_raising (first second : Ident) (c : ContextId) :
    defineSecond first second c (fun e => raise e.fault e.span) =
      (perform second.span (World.define c second.text .null) : Eval σ Unit) := by
  funext m
  unfold defineSecond expect perform
  rcases done : World.define c second.text .null m.world with ⟨fault | _, w⟩
  · dsimp only
    rw [World.define_error done]
    split
    · rfl
    · rfl
  · rfl

end Eval

/-- With the fallback that raises the errors, the functions of the evaluator are what they were. -/
structure Unaltered (o : Observer σ) (fuel : Nat) : Prop where
  evaluate : ∀ e c, evaluateOr .raising o fuel e c = evaluate o fuel e c
  execute : ∀ s c, executeOr .raising o fuel s c = execute o fuel s c
  whileRounds : ∀ e ss c, whileRoundsOr .raising o fuel e ss c = whileRounds o fuel e ss c
  countRounds : ∀ i limit step ss c,
    countRoundsOr .raising o fuel i limit step ss c = countRounds o fuel i limit step ss c
  eachRounds : ∀ it i j span ss c,
    eachRoundsOr .raising o fuel it i j span ss c = eachRounds o fuel it i j span ss c

namespace Unaltered

variable {o : Observer σ} {fuel : Nat} (ih : Unaltered o fuel)

include ih

theorem evaluate_succ (e : Expression) (c : ContextId) :
    evaluateOr .raising o (fuel + 1) e c = Roteiro.evaluate o (fuel + 1) e c := by
  have run : executeOr .raising o fuel = Roteiro.execute o fuel :=
    funext fun s => funext fun c => ih.execute s c
  cases e with
  | binary op left right span =>
    rw [evaluateOr, Roteiro.evaluate, o.cascade_eq]
    simp only [ih.evaluate, operation?, Option.map, Option.getD]
  | call callee arguments span =>
    rw [evaluateOr, Roteiro.evaluate, o.cascade_eq]
    simp only [ih.evaluate, run, Fallback.raising, callClosureOr_raising]
    rfl
  | _ =>
    rw [evaluateOr, Roteiro.evaluate, o.cascade_eq]
    simp only [ih.evaluate]
    rfl

theorem execute_succ (s : Statement) (c : ContextId) :
    executeOr .raising o (fuel + 1) s c = Roteiro.execute o (fuel + 1) s c := by
  cases s with
  | countLoop counter first limit step body span =>
    rw [executeOr]
    simp only [ih.evaluate, ih.countRounds, Fallback.raising, expect_raising]
    exact (Roteiro.execute.eq_def o (fuel + 1) _ c).symm
  | eachLoop key value collection body span =>
    rw [executeOr, Roteiro.execute]
    simp only [ih.evaluate, ih.eachRounds, Fallback.raising, expect_raising, defineSecond_raising]
  | function _ =>
    rw [executeOr]
    exact (Roteiro.execute.eq_def o (fuel + 1) _ c).symm
  | conditional _ _ _ =>
    rw [executeOr]
    simp only [ih.evaluate, ih.execute]
    exact (Roteiro.execute.eq_def o (fuel + 1) _ c).symm
  | breakLoop _ => rw [executeOr, Roteiro.execute]
  | continueLoop _ => rw [executeOr, Roteiro.execute]
  | _ =>
    rw [executeOr, Roteiro.execute]
    simp only [ih.evaluate, ih.execute, ih.whileRounds]

theorem countRounds_succ (i : Ident) (limit : Option Expression) (step : Option Assignment)
    (ss : List Statement) (c : ContextId) :
    countRoundsOr .raising o (fuel + 1) i limit step ss c =
      Roteiro.countRounds o (fuel + 1) i limit step ss c := by
  cases limit with
  | none =>
    rw [countRoundsOr, Roteiro.countRounds]
    simp only [ih.evaluate, ih.execute, ih.countRounds, Fallback.raising, roundOr_raising]
  | some e =>
    rw [countRoundsOr, Roteiro.countRounds]
    simp only [ih.evaluate, ih.execute, ih.countRounds, Fallback.raising, expect_raising,
      roundOr_raising]

theorem succ : Unaltered o (fuel + 1) where
  evaluate := ih.evaluate_succ
  execute := ih.execute_succ
  whileRounds e ss c := by
    rw [whileRoundsOr, Roteiro.whileRounds]
    simp only [ih.evaluate, ih.execute, ih.whileRounds, Fallback.raising, roundOr_raising]
  countRounds := ih.countRounds_succ
  eachRounds it i j span ss c := by
    rw [eachRoundsOr]
    simp only [ih.execute, ih.eachRounds, Fallback.raising, expect_raising, roundOr_raising]
    exact (Roteiro.eachRounds.eq_def o (fuel + 1) it i j span ss c).symm

end Unaltered

/-- **The fallback that raises the errors makes no difference.** -/
theorem Observer.unaltered (o : Observer σ) : ∀ fuel, Unaltered o fuel := by
  intro fuel
  induction fuel with
  | zero =>
    constructor
    · intros; rw [evaluateOr, evaluate]
    · intros; rw [executeOr, execute]
    · intros; rw [whileRoundsOr, whileRounds]
    · intros; rw [countRoundsOr, countRounds]
    · intros; rw [eachRoundsOr, eachRounds]
  | succ fuel ih => exact ih.succ

end Roteiro
