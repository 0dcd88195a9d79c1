import Roteiro.Eval.Session

/-!
Structured control flow. In this evaluator a statement tells by its result how it ended: with a
value, by breaking or continuing a loop, or by returning from a call. A body stops at the first
statement that does not end with a value and ends as that statement did; a loop catches what breaks
or continues it, and a call what returns from it. There are no frames, and nothing is looked up in a
context but names: where a statement stands, in a loop or not and in a call or not, is given to it.
-/

namespace Roteiro

open Eval

/-- How a statement ends that does not fail. -/
inductive Flow where
  | normal (value : Value)
  | breaking
  | continuing
  | returning (values : List Value)

/-- A flow without its value. -/
def Flow.quiet : Flow → Flow
  | .normal _ => .normal .null
  | jump => jump

/-- Where a statement stands: whether a loop of the same call runs around it, and whether a call
does. -/
structure Place where
  inLoop : Bool
  inCall : Bool

namespace Place

/-- Outside all loops and calls. -/
def outside : Place := ⟨false, false⟩

/-- In the body of a routine. -/
def routine : Place := ⟨false, true⟩

/-- In the body of a loop. -/
def loop (p : Place) : Place := { p with inLoop := true }

end Place

namespace Structured

variable {α : Type}

/-! ### bodies, rounds and calls -/

/-- A result after `leave` has been done to the world, unless the evaluation broke off. -/
def leaving (leave : World → World) : Outcome α × Machine Unit → Outcome α × Machine Unit
  | (.aborted, m) => (.aborted, m)
  | (outcome, m) => (outcome, { m with world := leave m.world })

/-- Runs an evaluation in a scope of its own, or breaks off if no level is left for it. -/
def within (c : ContextId) (inner : Eval Unit α) : Eval Unit α :=
  fun m =>
    if (m.world.context c).full then (.aborted, m)
    else leaving (World.leaveScope c) (inner { m with world := m.world.enterScope c })

/-- Runs what has no value of its own. -/
def void (x : Eval Unit Flow) : Eval Unit Flow := do
  let flow ← x
  pure flow.quiet

/-- Runs statements until one of them does not end with a value. -/
def sequence (statement : Statement → Eval Unit Flow) : List Statement → Eval Unit Flow
  | [] => pure (.normal .null)
  | s :: ss => do
    match ← statement s with
    | .normal _ => sequence statement ss
    | jump => pure jump

/-- Ends a round whose body ended in this way: the step of the loop is taken unless the body
returned. -/
def stepping (step : Option (Eval Unit Value)) : Flow → Eval Unit Flow
  | .returning values => pure (.returning values)
  | flow =>
    match step with
    | none => pure flow
    | some step => do
      let _ ← step
      pure flow

/-- Runs one round of a loop in a scope of its own. -/
def round (c : ContextId) (statement : Statement → Eval Unit Flow) (ss : List Statement)
    (step : Option (Eval Unit Value)) : Eval Unit Flow :=
  within c do
    let flow ← sequence statement ss
    stepping step flow

/-- What a loop does after a round that ended in this way: it ends, goes on, or returns. -/
def after (next : Eval Unit Flow) : Flow → Eval Unit Flow
  | .normal _ | .continuing => next
  | .breaking => pure (.normal .null)
  | .returning values => pure (.returning values)

/-- The value of a call whose body ended in this way: the first value returned. -/
def result : Flow → Value
  | .returning (v :: _) => v
  | _ => .null

/-- Runs a function in the context of a call. -/
def routine (statement : Statement → Eval Unit Flow) (c : ContextId) (f : Closure)
    (vs : List Value) : Eval Unit Flow := do
  parameters c f.routine.parameters vs
  sequence statement f.routine.body

/-- Calls a function in a new context inside the one it was made in. -/
def call (statement : Statement → ContextId → Eval Unit Flow) (f : Closure) (vs : List Value) :
    Eval Unit Value := do
  let c ← make (World.newChild f.context)
  let flow ← routine (fun s => statement s c) c f vs
  pure (result flow)

/-! ### expressions and statements -/

mutual

/-- The value of an expression. -/
def value : Nat → Expression → ContextId → Eval Unit Value
  | 0, _, _ => exhausted
  | fuel + 1, e, c =>
    match e with
    | .atom a span => Eval.atom a span c
    | .array items _ => do
      let vs ← Eval.all (fun e => value fuel e c) items
      make (World.newArray vs.toArray)
    | .dictionary entries _ => do
      let d ← Eval.entries (fun e => value fuel e c) .empty entries
      make (World.newDictionary d)
    | .function routine => make (World.newFunction ⟨routine, c⟩)
    | .negate operand span => do
      let v ← value fuel operand c
      require span v.negate
    | .binary op left right span => do
      let a ← Eval.operand (fun e => value fuel e c) op left
      let b ← Eval.operand (fun e => value fuel e c) op right
      require span (Value.apply op a b)
    | .call callee arguments span => do
      let f ← value fuel callee c
      let vs ← Eval.all (fun e => value fuel e c) arguments
      match f with
      | .function _ closure => call (statement fuel .routine) closure vs
      | .native _ b => if b.breaksOff vs then aborted else perform span (World.callBuiltin b vs)
      | v => raise (.notCallable v.type) span
    | .property object key span => do
      let x ← value fuel object c
      let k ← value fuel key c
      perform span (World.property x k)

/-- Carries out a statement that stands at a place and tells how it ends. -/
def statement : Nat → Place → Statement → ContextId → Eval Unit Flow
  | 0, _, _, _ => exhausted
  | fuel + 1, p, s, c =>
    match s with
    | .declaration name e _ => do
      let v ← value fuel e c
      perform name.span (World.define c name.text v)
      pure (.normal v)
    | .assignment a => do
      let v ← Eval.assign (fun e => value fuel e c) c a
      pure (.normal v)
    | .expression e => do
      let v ← value fuel e c
      pure (.normal v)
    | .block body _ => void (within c (sequence (fun s => statement fuel p s c) body))
    | .whileLoop condition body _ => void (whileLoop fuel p condition body c)
    | .countLoop counter first limit step body _ =>
      void <| within c do
        if !(← ask fun w => w.knows c counter.text) then
          perform counter.span (World.define c counter.text (.number 0))
        match first with
        | none => pure ()
        | some e =>
          let v ← value fuel e c
          perform counter.span (World.assign c counter.text v)
        countLoop fuel p counter limit step body c
    | .eachLoop key item collection body _ => do
      let v ← value fuel collection c
      let it ← perform collection.span fun w => (w.heap.iterate v, w)
      void <| within c do
        perform key.span (World.define c key.text .null)
        perform item.span (World.define c item.text .null)
        eachLoop fuel p it key item body c
    | .function routine => do
      let f ← make (World.newFunction ⟨routine, c⟩)
      match routine.name with
      | none => pure ()
      | some name => perform name.span (World.define c name.text f)
      pure (.normal f)
    | .conditional branches otherwise _ => do
      match ← Eval.choose (fun e => value fuel e c) otherwise branches with
      | none => pure (.normal .null)
      | some body => void (within c (sequence (fun s => statement fuel p s c) body))
    | .breakLoop span => if p.inLoop then pure .breaking else raise .noLoop span
    | .continueLoop span => if p.inLoop then pure .continuing else raise .noLoop span
    | .returnValues values span => do
      let vs ← Eval.all (fun e => value fuel e c) values
      if p.inCall then pure (.returning vs) else raise .noFunction span

/-- Goes round as long as a condition holds. -/
def whileLoop : Nat → Place → Expression → List Statement → ContextId → Eval Unit Flow
  | 0, _, _, _, _ => exhausted
  | fuel + 1, p, condition, body, c => do
    let v ← value fuel condition c
    if ← require condition.span v.truth then
      let flow ← round c (fun s => statement fuel p.loop s c) body none
      after (whileLoop fuel p condition body c) flow
    else pure (.normal .null)

/-- Goes round as long as a counter is short of its limit. -/
def countLoop : Nat → Place → Ident → Option Expression → Option Assignment → List Statement →
    ContextId → Eval Unit Flow
  | 0, _, _, _, _, _, _ => exhausted
  | fuel + 1, p, counter, limit, step, body, c => do
    let more ←
      match limit with
      | none => pure true
      | some e => do
        let v ← value fuel e c
        let current ← perform counter.span (World.lookup c counter.text)
        require e.span (shortOf current v)
    if more then
      let next := step.map (Eval.assign (fun e => value fuel e c) c)
      let flow ← round c (fun s => statement fuel p.loop s c) body next
      after (countLoop fuel p counter limit step body c) flow
    else pure (.normal .null)

/-- Goes round once for each entry of a collection. -/
def eachLoop : Nat → Place → Iteration → Ident → Ident → List Statement → ContextId →
    Eval Unit Flow
  | 0, _, _, _, _, _, _ => exhausted
  | fuel + 1, p, it, key, item, body, c => do
    let (entry, it) ← ask fun w => w.heap.advance it
    match entry with
    | none => pure (.normal .null)
    | some (k, v) =>
      perform key.span (World.assign c key.text k)
      perform item.span (World.assign c item.text v)
      let flow ← round c (fun s => statement fuel p.loop s c) body none
      after (eachLoop fuel p it key item body c) flow

end

/-! ### scripts -/

/-- The value of the last of some statements outside all loops and calls. -/
def script (statement : Statement → Eval Unit Flow) : Value → List Statement → Eval Unit Value
  | last, [] => pure last
  | _, s :: ss => do
    match ← statement s with
    | .normal v => script statement v ss
    -- Nothing else can happen outside loops and calls.
    | _ => pure .null

/-- The value of running the remaining statements of a session. -/
def run (fuel : Nat) (s : Session) (w : World) : Outcome Value × World :=
  let (outcome, m) :=
    script (fun st => statement fuel .outside st s.context) .null s.remaining ⟨w, ()⟩
  (outcome, m.world)

end Structured

end Roteiro
