import Roteiro.Tree.Basic

/-!
The nodes of a tree and what they are made of. Statements, expressions, assignments, routines and
names are the parts of a script; each has a span, and components that stand in it in the order of
the source. Entries, targets and branches have no span of their own, so what they hold counts as
components of the node around them.
-/

namespace Roteiro

/-- A node of a tree. -/
inductive Part where
  | statement (s : Statement)
  | expression (e : Expression)
  | assignment (a : Assignment)
  | routine (r : Routine)
  | ident (name : Ident)

/-- The key of an entry as a node. -/
def Key.part : Key → Part
  | .name x => .ident x
  | .computed e => .expression e

/-- The nodes in an entry of a dictionary. -/
def Entry.components : Entry → List Part
  | .mk key value => [key.part, .expression value]

/-- The nodes in what an assignment writes to. -/
def Target.components : Target → List Part
  | .name x => [.ident x]
  | .property object key => [.expression object, .expression key]

/-- The nodes in a branch of a conditional. -/
def Branch.components : Branch → List Part
  | .mk condition body => .expression condition :: body.map .statement

/-- The components of an expression. -/
def Expression.components : Expression → List Part
  | .atom (.identifier name) _ => [.ident name]
  | .atom _ _ => []
  | .array items _ => items.map .expression
  | .dictionary entries _ => entries.flatMap Entry.components
  | .function routine => [.routine routine]
  | .negate operand _ => [.expression operand]
  | .binary _ left right _ => [.expression left, .expression right]
  | .call callee arguments _ => .expression callee :: arguments.map .expression
  | .property object key _ => [.expression object, .expression key]

/-- The components of a statement. -/
def Statement.components : Statement → List Part
  | .declaration name value _ => [.ident name, .expression value]
  | .assignment a => [.assignment a]
  | .expression e => [.expression e]
  | .block body _ => body.map .statement
  | .whileLoop condition body _ => .expression condition :: body.map .statement
  | .countLoop counter first limit step body _ =>
    .ident counter :: (first.toList.map .expression ++ (limit.toList.map .expression ++
      (step.toList.map .assignment ++ body.map .statement)))
  | .eachLoop key value collection body _ =>
    .ident key :: .ident value :: .expression collection :: body.map .statement
  | .function routine => [.routine routine]
  | .conditional branches otherwise _ =>
    branches.flatMap Branch.components ++ (otherwise.getD []).map .statement
  | .breakLoop _ => []
  | .continueLoop _ => []
  | .returnValues values _ => values.map .expression

namespace Part

/-- The span of a node. -/
def span : Part → Span
  | statement s => s.span
  | expression e => e.span
  | assignment a => a.span
  | routine r => r.span
  | ident name => name.span

/-- The direct components of a node, in the order in which they stand in it. -/
def components : Part → List Part
  | statement s => s.components
  | expression e => e.components
  | assignment a => a.target.components ++ [.expression a.value]
  | routine r => r.name.toList.map .ident ++ (r.parameters.map .ident ++ r.body.map .statement)
  | ident _ => []

end Part

/-- The nodes of a script: its statements, their components, the components of these, and so on. -/
inductive Program.Has (program : Program) : Part → Prop
  | statement {s : Statement} : s ∈ program.statements → program.Has (.statement s)
  | component {p c : Part} : program.Has p → c ∈ p.components → program.Has c

end Roteiro
