import Roteiro.Eval.Parts

/-!
The evaluator. Expressions and statements are evaluated in a context, and every node is shown to
the observer. A statement that breaks or continues a loop or returns from a call only leaves a
signal in the context; bodies and loops look for signals after each statement. The functions of the
group call one another with one unit of fuel less.
-/

namespace Roteiro

open Eval

variable {σ : Type}

mutual

/-- The value of an expression. -/
def evaluate (o : Observer σ) : Nat → Expression → ContextId → Eval σ Value
  | 0, _, _ => Eval.exhausted
  | fuel + 1, e, c =>
    o.captureTimes e.captures (.expression e) c <|
      match e with
      | .atom a span => Eval.atom a span c
      | .array items _ => do
        let vs ← Eval.all (fun e => evaluate o fuel e c) items
        make (World.newArray vs.toArray)
      | .dictionary entries _ => do
        let d ← Eval.entries (fun e => evaluate o fuel e c) .empty entries
        make (World.newDictionary d)
      | .function routine => make (World.newFunction ⟨routine, c⟩)
      | .negate operand span => do
        let v ← evaluate o fuel operand c
        require span v.negate
      | .binary op left right span => do
        let a ← Eval.operand (fun e => evaluate o fuel e c) op left
        let b ← Eval.operand (fun e => evaluate o fuel e c) op right
        require span (Value.apply op a b)
      | .call callee arguments span => do
        let f ← evaluate o fuel callee c
        let vs ← Eval.all (fun e => evaluate o fuel e c) arguments
        match f with
        | .function _ closure => callClosure (execute o fuel) closure vs span
        | .native _ b =>
          if b.breaksOff vs then Eval.aborted else perform span (World.callBuiltin b vs)
        | v => raise (.notCallable v.type) span
      | .property object key span => do
        let x ← evaluate o fuel object c
        let k ← evaluate o fuel key c
        perform span (World.property x k)

/-- Carries out a statement and returns its value. -/
def execute (o : Observer σ) : Nat → Statement → ContextId → Eval σ Value
  | 0, _, _ => Eval.exhausted
  | fuel + 1, s, c =>
    o.capture (.statement s) c <|
      match s with
      | .declaration name value _ => do
        let v ← evaluate o fuel value c
        perform name.span (World.define c name.text v)
        pure v
      | .assignment a => Eval.assign (fun e => evaluate o fuel e c) c a
      | .expression e => evaluate o fuel e c
      | .block body span => do
        inScope c span (Eval.body (fun s => execute o fuel s c) c body)
        pure .null
      | .whileLoop condition body _ => do
        whileRounds o fuel condition body c
        pure .null
      | .countLoop counter first limit step body span => do
        inScope c span do
          if !(← ask fun w => w.knows c counter.text) then
            perform counter.span (World.define c counter.text (.number 0))
          match first with
          | none => pure ()
          | some e =>
            let v ← evaluate o fuel e c
            perform counter.span (World.assign c counter.text v)
          countRounds o fuel counter limit step body c
        pure .null
      | .eachLoop key value collection body span => do
        let v ← evaluate o fuel collection c
        let it ← perform collection.span fun w => (w.heap.iterate v, w)
        inScope c span do
          perform key.span (World.define c key.text .null)
          perform value.span (World.define c value.text .null)
          eachRounds o fuel it key value collection.span body c
        pure .null
      | .function routine => do
        let f ← make (World.newFunction ⟨routine, c⟩)
        match routine.name with
        | none => pure ()
        | some name => perform name.span (World.define c name.text f)
        pure f
      | .conditional branches otherwise span => do
        match ← Eval.choose (fun e => evaluate o fuel e c) otherwise branches with
        | none => pure ()
        | some body => inScope c span (Eval.body (fun s => execute o fuel s c) c body)
        pure .null
      | .breakLoop span => do
        perform span (World.onContext c Context.markBreak)
        pure .null
      | .continueLoop span => do
        perform span (World.onContext c Context.markContinue)
        pure .null
      | .returnValues values span => do
        let vs ← Eval.all (fun e => evaluate o fuel e c) values
        -- A return without a value still has to end the call.
        let returned := if vs.isEmpty then [.null] else vs
        perform span (World.onContext c (·.pushReturns returned))
        pure .null

/-- The rounds of a loop under a condition. -/
def whileRounds (o : Observer σ) : Nat → Expression → List Statement → ContextId → Eval σ Unit
  | 0, _, _, _ => Eval.exhausted
  | fuel + 1, condition, body, c => do
    let v ← evaluate o fuel condition c
    if ← require condition.span v.truth then
      if ← Eval.round (fun s => execute o fuel s c) c condition.span body none then
        whileRounds o fuel condition body c

/-- The rounds of a loop over a counter. -/
def countRounds (o : Observer σ) : Nat → Ident → Option Expression → Option Assignment →
    List Statement → ContextId → Eval σ Unit
  | 0, _, _, _, _, _ => Eval.exhausted
  | fuel + 1, counter, limit, step, body, c => do
    let more ←
      match limit with
      | none => pure true
      | some e => do
        let v ← evaluate o fuel e c
        let current ← perform counter.span (World.lookup c counter.text)
        require e.span (shortOf current v)
    if more then
      let after := step.map (Eval.assign (fun e => evaluate o fuel e c) c)
      if ← Eval.round (fun s => execute o fuel s c) c counter.span body after then
        countRounds o fuel counter limit step body c

/-- The rounds of a loop over a collection. -/
def eachRounds (o : Observer σ) : Nat → Iteration → Ident → Ident → Span → List Statement →
    ContextId → Eval σ Unit
  | 0, _, _, _, _, _, _ => Eval.exhausted
  | fuel + 1, it, key, value, span, body, c => do
    let (entry, it) ← ask fun w => w.heap.advance it
    match entry with
    | none => pure ()
    | some (k, v) =>
      perform key.span (World.assign c key.text k)
      perform value.span (World.assign c value.text v)
      if ← Eval.round (fun s => execute o fuel s c) c span body none then
        eachRounds o fuel it key value span body c

end

end Roteiro
