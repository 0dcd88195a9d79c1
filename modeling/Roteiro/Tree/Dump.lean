import Roteiro.Text.Quoted
import Roteiro.Tree.Basic

/-!
Structural dumps of trees, with every part and every span.
-/

namespace Roteiro

open Decimal Text

/-- The structural dump of a name. -/
def Ident.dump (i : Ident) : String :=
  dumpRecord "Ident" [("name", quoted i.text), ("span", i.span.dump)]

/-- The structural dump of a leaf. -/
def Atom.dump : Atom → String
  | null => "Null"
  | number v => dumpVariant "Number" [Layout.dump.text v]
  | string v => dumpVariant "String" [quoted v]
  | boolean v => dumpVariant "Bool" [if v then "true" else "false"]
  | identifier name => dumpVariant "Identifier" [name.dump]

/-- The structural dump of an operator. -/
def Operator.dump : Operator → String
  | and => "And"
  | or => "Or"
  | equal => "Equal"
  | notEqual => "NotEqual"
  | greater => "GreaterThan"
  | greaterEqual => "GreaterThanEqual"
  | less => "LessThan"
  | lessEqual => "LessThanEqual"
  | add => "Add"
  | subtract => "Subtract"
  | multiply => "Multiply"
  | divide => "Divide"
  | modulo => "Modulo"

/-- The name of a level of precedence. -/
def Tier.dump : Tier → String
  | logical => "Logical"
  | comparison => "Comparison"
  | additive => "Additive"
  | multiplicative => "Multiplicative"

/-- An expression around the dump of what it is made of. -/
def dumpExpression (kind : String) (span : Span) : String :=
  dumpRecord "Expression" [("kind", kind), ("span", span.dump)]

mutual

/-- The structural dump of an expression. -/
def Expression.dump : Expression → String
  | .atom a span => dumpExpression (dumpVariant "Atom" [a.dump]) span
  | .array items span =>
    dumpExpression (dumpVariant "Array" [dumpList (Expression.dumpAll items)]) span
  | .dictionary entries span =>
    dumpExpression (dumpVariant "Dictionary" [dumpList (Entry.dumpAll entries)]) span
  | .function routine => dumpExpression (dumpVariant "Function" [routine.dump]) routine.span
  | .negate operand span => dumpExpression (dumpVariant "Not" [operand.dump]) span
  | .binary op left right span =>
    dumpExpression (dumpRecord op.tier.dump
      [("operator", op.dump), ("lhs", left.dump), ("rhs", right.dump)]) span
  | .call callee arguments span =>
    dumpExpression (dumpRecord "Call"
      [("callee", callee.dump), ("arguments", dumpList (Expression.dumpAll arguments))]) span
  | .property object key span =>
    dumpExpression (dumpRecord "Property" [("object", object.dump), ("key", key.dump)]) span

/-- The dumps of the expressions of a list. -/
def Expression.dumpAll : List Expression → List String
  | [] => []
  | e :: es => e.dump :: Expression.dumpAll es

/-- The dump of an optional expression. -/
def Expression.dumpOption : Option Expression → String
  | some e => Text.dumpOption (some e.dump)
  | none => Text.dumpOption none

/-- The structural dump of an entry of a dictionary literal. -/
def Entry.dump : Entry → String
  | .mk key value => dumpRecord "DictionaryEntry" [("key", key.dump), ("value", value.dump)]

/-- The dumps of the entries of a list. -/
def Entry.dumpAll : List Entry → List String
  | [] => []
  | e :: es => e.dump :: Entry.dumpAll es

/-- The structural dump of a key. -/
def Key.dump : Key → String
  | .name ident => dumpVariant "Name" [ident.dump]
  | .computed e => dumpVariant "Expression" [e.dump]

/-- The structural dump of a routine. -/
def Routine.dump : Routine → String
  | .mk name parameters body span =>
    dumpRecord "FunctionDecl"
      [("name", Text.dumpOption (name.map Ident.dump)),
        ("parameters", dumpList (parameters.map Ident.dump)),
        ("body", dumpList (Statement.dumpAll body)), ("span", span.dump)]

/-- The structural dump of a target. -/
def Target.dump : Target → String
  | .name ident => dumpVariant "Identifier" [ident.dump]
  | .property object key => dumpRecord "Property" [("object", object.dump), ("key", key.dump)]

/-- The structural dump of an assignment. -/
def Assignment.dump : Assignment → String
  | .mk target value span =>
    dumpRecord "Assignment"
      [("target", target.dump), ("value", value.dump), ("span", span.dump)]

/-- The dump of an optional assignment. -/
def Assignment.dumpOption : Option Assignment → String
  | some a => Text.dumpOption (some a.dump)
  | none => Text.dumpOption none

/-- The structural dump of a branch. -/
def Branch.dump : Branch → String
  | .mk condition body =>
    dumpRecord "ConditionalBranch"
      [("condition", condition.dump), ("body", dumpList (Statement.dumpAll body))]

/-- The dumps of the branches of a list. -/
def Branch.dumpAll : List Branch → List String
  | [] => []
  | b :: bs => b.dump :: Branch.dumpAll bs

/-- The structural dump of a statement. -/
def Statement.dump : Statement → String
  | .declaration name value span =>
    dumpRecord "Declaration" [("name", name.dump), ("value", value.dump), ("span", span.dump)]
  | .assignment a => dumpVariant "Assignment" [a.dump]
  | .expression e => dumpVariant "Expression" [e.dump]
  | .block body span =>
    dumpRecord "Block" [("body", dumpList (Statement.dumpAll body)), ("span", span.dump)]
  | .whileLoop condition body span =>
    dumpRecord "While"
      [("condition", condition.dump), ("body", dumpList (Statement.dumpAll body)),
        ("span", span.dump)]
  | .countLoop counter first limit step body span =>
    dumpRecord "NumericFor"
      [("variable", counter.dump), ("from", Expression.dumpOption first),
        ("until", Expression.dumpOption limit), ("step", Assignment.dumpOption step),
        ("body", dumpList (Statement.dumpAll body)), ("span", span.dump)]
  | .eachLoop key value collection body span =>
    dumpRecord "IterativeFor"
      [("key", key.dump), ("value", value.dump), ("iterable", collection.dump),
        ("body", dumpList (Statement.dumpAll body)), ("span", span.dump)]
  | .function routine => dumpVariant "Function" [routine.dump]
  | .conditional branches otherwise span =>
    dumpRecord "If"
      [("branches", dumpList (Branch.dumpAll branches)),
        ("otherwise", match otherwise with
          | some body => Text.dumpOption (some (dumpList (Statement.dumpAll body)))
          | none => Text.dumpOption none),
        ("span", span.dump)]
  | .breakLoop span => dumpVariant "Break" [span.dump]
  | .continueLoop span => dumpVariant "Continue" [span.dump]
  | .returnValues values span =>
    dumpRecord "Return" [("values", dumpList (Expression.dumpAll values)), ("span", span.dump)]

/-- The dumps of the statements of a list. -/
def Statement.dumpAll : List Statement → List String
  | [] => []
  | s :: ss => s.dump :: Statement.dumpAll ss

end

/-- The structural dump of a program. -/
def Program.dump (p : Program) : String :=
  dumpRecord "Program"
    [("statements", dumpList (Statement.dumpAll p.statements)), ("span", p.span.dump)]

end Roteiro
