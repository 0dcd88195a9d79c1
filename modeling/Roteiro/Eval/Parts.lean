import Roteiro.Eval.Observer
import Roteiro.Value.Iteration
import Roteiro.Value.Operators
import Roteiro.World.Library

/-!
The parts of evaluation that go through lists and scopes. Each takes the evaluation of the smaller
parts as an argument, so none of them calls itself except along a list.
-/

namespace Roteiro.Eval

variable {σ : Type}

/-! ### expressions -/

/-- The value of a leaf. -/
def atom (a : Atom) (span : Span) (c : ContextId) : Eval σ Value :=
  match a with
  | .null => Eval.pure .null
  | .number v => Eval.pure (.number v)
  | .string v => Eval.pure (.string v)
  | .boolean v => Eval.pure (.boolean v)
  | .identifier name => perform span (World.lookup c name.text)

/-- The values of expressions, from first to last. -/
def all (evaluate : Expression → Eval σ Value) : List Expression → Eval σ (List Value)
  | [] => Eval.pure []
  | e :: es => do
    let v ← evaluate e
    let vs ← all evaluate es
    pure (v :: vs)

/-- The key of an entry. -/
def entryKey (evaluate : Expression → Eval σ Value) : Key → Eval σ String
  | .name ident => Eval.pure ident.text
  | .computed e => do
    let v ← evaluate e
    ask fun w => w.heap.key v

/-- Writes the entries of a dictionary literal one after the other. -/
def entries (evaluate : Expression → Eval σ Value) (d : Dictionary) : List Entry → Eval σ Dictionary
  | [] => Eval.pure d
  | .mk key value :: rest => do
    let k ← entryKey evaluate key
    let v ← evaluate value
    entries evaluate (d.set k v) rest

/-- The value of an operand. The operands of logical operators must be truth values. -/
def operand (evaluate : Expression → Eval σ Value) (op : Operator) (e : Expression) :
    Eval σ Value := do
  let v ← evaluate e
  if op.tier = .logical then
    let _ ← require e.span v.truth
  pure v

/-! ### statements -/

/-- Runs statements in the current scope until one of them interrupts the body. -/
def body (execute : Statement → Eval σ Value) (c : ContextId) : List Statement → Eval σ Unit
  | [] => Eval.pure ()
  | s :: ss => do
    let _ ← execute s
    if ← ask fun w => (w.context c).interrupted then pure ()
    else body execute c ss

/-- Enters a scope. If no level is left for it, the evaluation breaks off: where arithmetic is
checked it ends there, and where it is not, nothing is said of what comes after. -/
def openScope (c : ContextId) : Eval σ Unit := do
  if ← ask fun w => (w.context c).full then aborted
  else change (World.enterScope c)

/-- Runs an evaluation in a scope of its own. -/
def inScope {α : Type} (c : ContextId) (span : Span) (inner : Eval σ α) : Eval σ Unit := do
  openScope c
  closing span inner fun w => (.ok (), w.leaveScope c)

/-- Runs one round of a loop: the body in a scope and a loop frame of its own, then the step unless
the call has returned. Tells whether the loop goes on. -/
def round (execute : Statement → Eval σ Value) (c : ContextId) (span : Span)
    (statements : List Statement) (step : Option (Eval σ Value)) : Eval σ Bool := do
  openScope c
  change (World.update c Context.pushLoop)
  let inner : Eval σ Unit := do
    body execute c statements
    match step with
    | none => pure ()
    | some step =>
      if ← ask fun w => (w.context c).hasReturned then pure ()
      else
        let _ ← step
        pure ()
  let frame ← closing span inner fun w =>
    let (frame, w) := w.popLoop c
    (frame, w.leaveScope c)
  ask fun w => !frame.broken && !(w.context c).hasReturned

/-- Carries out an assignment. Its value is the value assigned. -/
def assign (evaluate : Expression → Eval σ Value) (c : ContextId) : Assignment → Eval σ Value
  | .mk (.name ident) value _ => do
    let v ← evaluate value
    perform ident.span (World.assign c ident.text v)
    pure v
  | .mk (.property object key) value span => do
    let o ← evaluate object
    let k ← evaluate key
    let v ← evaluate value
    perform span (World.setProperty o k v)
    pure v

/-- The body of the first branch whose condition holds, or else the last resort. -/
def choose (evaluate : Expression → Eval σ Value) (otherwise : Option (List Statement)) :
    List Branch → Eval σ (Option (List Statement))
  | [] => Eval.pure otherwise
  | .mk condition body :: rest => do
    let v ← evaluate condition
    if ← require condition.span v.truth then pure (some body)
    else choose evaluate otherwise rest

/-- Whether a counter is short of its limit. A number limits by order and a truth value by itself;
nothing is short of any other value. -/
def shortOf (current limit : Value) : Except RuntimeFault Bool :=
  match limit with
  | .number _ => current.less limit
  | .boolean done => .ok (!done)
  | _ => .ok false

/-! ### calls -/

/-- Defines the parameters of a routine by the arguments of a call. Parameters without an argument
stay undefined, and arguments without a parameter are dropped. -/
def parameters (c : ContextId) : List Ident → List Value → Eval σ Unit
  | p :: ps, v :: vs => do
    perform p.span (World.define c p.text v)
    parameters c ps vs
  | _, _ => Eval.pure ()

/-- Calls a function in a new context inside the one it was made in. Its value is the first value
returned. -/
def callClosure (execute : Statement → ContextId → Eval σ Value) (f : Closure)
    (arguments : List Value) (span : Span) : Eval σ Value := do
  let c ← make (World.newChild f.context)
  change (World.update c Context.pushCall)
  let inner : Eval σ Unit := do
    parameters c f.routine.parameters arguments
    body (fun s => execute s c) c f.routine.body
  let returned ← closing span inner (World.popCall c)
  pure (returned.headD .null)

end Roteiro.Eval
