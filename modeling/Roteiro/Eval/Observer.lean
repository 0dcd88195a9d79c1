import Roteiro.Eval.Monad

/-!
Observers. Whoever watches an evaluation is shown each node before it is evaluated, and its value
afterwards if the node was taken. An observer may end the evaluation by a fault of its own.
-/

namespace Roteiro

/-- A node that is shown to an observer. -/
inductive Node where
  | program (program : Program)
  | statement (statement : Statement)
  | expression (expression : Expression)

/-! ### weights -/

mutual

/-- The number of nodes of an expression. -/
def Expression.weight : Expression → Nat
  | .atom _ _ => 1
  | .array items _ => Expression.weightAll items + 1
  | .dictionary entries _ => Entry.weightAll entries + 1
  | .function routine => routine.weight + 1
  | .negate operand _ => operand.weight + 1
  | .binary _ left right _ => left.weight + right.weight + 1
  | .call callee arguments _ => callee.weight + Expression.weightAll arguments + 1
  | .property object key _ => object.weight + key.weight + 1

/-- The number of nodes of a list of expressions. -/
def Expression.weightAll : List Expression → Nat
  | [] => 0
  | e :: es => e.weight + Expression.weightAll es

/-- The number of nodes of an optional expression. -/
def Expression.weightOption : Option Expression → Nat
  | some e => e.weight
  | none => 0

/-- The number of nodes of an entry. -/
def Entry.weight : Entry → Nat
  | .mk key value => key.weight + value.weight

/-- The number of nodes of a list of entries. -/
def Entry.weightAll : List Entry → Nat
  | [] => 0
  | e :: es => e.weight + Entry.weightAll es

/-- The number of nodes of a key. -/
def Key.weight : Key → Nat
  | .name _ => 0
  | .computed e => e.weight

/-- The number of nodes of a routine. -/
def Routine.weight : Routine → Nat
  | .mk _ _ body _ => Statement.weightAll body

/-- The number of nodes of a target. -/
def Target.weight : Target → Nat
  | .name _ => 0
  | .property object key => object.weight + key.weight

/-- The number of nodes of an assignment. -/
def Assignment.weight : Assignment → Nat
  | .mk target value _ => target.weight + value.weight

/-- The number of nodes of an optional assignment. -/
def Assignment.weightOption : Option Assignment → Nat
  | some a => a.weight
  | none => 0

/-- The number of nodes of a branch. -/
def Branch.weight : Branch → Nat
  | .mk condition body => condition.weight + Statement.weightAll body

/-- The number of nodes of a list of branches. -/
def Branch.weightAll : List Branch → Nat
  | [] => 0
  | b :: bs => b.weight + Branch.weightAll bs

/-- The number of nodes of a statement. -/
def Statement.weight : Statement → Nat
  | .declaration _ value _ => value.weight + 1
  | .assignment a => a.weight + 1
  | .expression e => e.weight + 1
  | .block body _ => Statement.weightAll body + 1
  | .whileLoop condition body _ => condition.weight + Statement.weightAll body + 1
  | .countLoop _ first limit step body _ =>
    Expression.weightOption first + Expression.weightOption limit + Assignment.weightOption step
      + Statement.weightAll body + 1
  | .eachLoop _ _ collection body _ => collection.weight + Statement.weightAll body + 1
  | .function routine => routine.weight + 1
  | .conditional branches otherwise _ =>
    Branch.weightAll branches +
      (match otherwise with
        | some body => Statement.weightAll body
        | none => 0) + 1
  | .breakLoop _ => 1
  | .continueLoop _ => 1
  | .returnValues values _ => Expression.weightAll values + 1

/-- The number of nodes of a list of statements. -/
def Statement.weightAll : List Statement → Nat
  | [] => 0
  | s :: ss => s.weight + Statement.weightAll ss

end

/-! ### nodes -/

/-- The three sorts of node. -/
inductive NodeSort where
  | program
  | statement
  | expression
  deriving Repr, DecidableEq

/-- What tells a node from those it stands in and those that stand in it: a part has the span or
the weight of the whole only if they are of different sorts. -/
structure NodeKey where
  sort : NodeSort
  span : Span
  weight : Nat
  deriving Repr, DecidableEq

namespace Node

/-- The text of a node. -/
def text : Node → String
  | program p => p.text
  | statement s => s.text
  | expression e => e.text

/-- The span of a node. -/
def span : Node → Span
  | program p => p.span
  | statement s => s.span
  | expression e => e.span

/-- The key of a node. -/
def key : Node → NodeKey
  | program p => ⟨.program, p.span, Statement.weightAll p.statements + 1⟩
  | statement s => ⟨.statement, s.span, s.weight⟩
  | expression e => ⟨.expression, e.span, e.weight⟩

end Node

/-! ### observers -/

/-- An observer with a state of type `σ`. -/
structure Observer (σ : Type) where
  /-- Shown a node and its context, answers whether the node is taken. -/
  enter : Node → ContextId → Machine σ → Except RuntimeFault Bool × Machine σ
  /-- Shown the value of a node that was taken. -/
  leave : Value → ContextId → Machine σ → Except RuntimeFault Unit × Machine σ

/-- The observer that takes nothing. -/
def Observer.none : Observer Unit where
  enter _ _ m := (.ok false, m)
  leave _ _ m := (.ok (), m)

namespace Observer

variable {σ : Type}

/-- Shows the value of a node to an observer. -/
def leaving (o : Observer σ) (span : Span) (c : ContextId) (value : Value) : Eval σ Value :=
  fun m =>
    match o.leave value c m with
    | (.ok _, m) => (.ok value, m)
    | (.error fault, m) => (.error ⟨fault, span⟩, m)

/-- Shows a node to an observer around its evaluation. The faults of the observer stand at the
node. -/
def capture (o : Observer σ) (node : Node) (c : ContextId) (body : Eval σ Value) : Eval σ Value :=
  fun m =>
    match o.enter node c m with
    | (.error fault, m) => (.error ⟨fault, node.span⟩, m)
    | (.ok taken, m) =>
      (body.bind fun value => if taken then o.leaving node.span c value else Eval.pure value) m

/-- Shows a node several times over around its evaluation. -/
def captureTimes (o : Observer σ) : Nat → Node → ContextId → Eval σ Value → Eval σ Value
  | 0, _, _, body => body
  | n + 1, node, c, body => o.capture node c (o.captureTimes n node c body)

end Observer

/-- How often an expression is shown to an observer: once as an expression and once on each level
from the loosest operators down to the level it stands on. -/
def Expression.captures : Expression → Nat
  | binary op _ _ _ =>
    match op.tier with
    | .logical => 2
    | .comparison => 3
    | .additive => 4
    | .multiplicative => 5
  | _ => 6

end Roteiro
