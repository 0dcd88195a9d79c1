import Roteiro.Source.Lines
import Roteiro.Text.Quoted
import Roteiro.Tree.Printer

/-!
Errors of a running script: what went wrong, and the span of the node where it did.
-/

namespace Roteiro

open Decimal Text

/-- The types of values. -/
inductive ValueType where
  | null
  | number
  | boolean
  | string
  | array
  | dictionary
  | function
  | native
  deriving Repr, DecidableEq

/-- The name of a type. -/
def ValueType.text : ValueType → String
  | null => "Null"
  | number => "Number"
  | boolean => "Boolean"
  | string => "String"
  | array => "Array"
  | dictionary => "Dictionary"
  | function => "Function"
  | native => "NativeFunction"

/-- Why a script failed. -/
inductive RuntimeFault where
  | unknownName (name : String)
  /-- Declared twice in one scope. -/
  | alreadyDefined (name : String)
  /-- Assigned without having been declared. -/
  | notDefined (name : String)
  | unsupportedOperator (operator : Operator) (left right : ValueType)
  | unsupportedNegation (operand : ValueType)
  | nonBoolean (actual : ValueType)
  | noLoop
  | noFunction
  | notCallable (actual : ValueType)
  | notIndexable (actual : ValueType)
  | notIterable (actual : ValueType)
  /-- A node met where it cannot be evaluated. -/
  | unreachableNode (node : String)
  | invalidArgument (name expected : String)
  /-- Stopped from outside. -/
  | halted
  /-- A write too far past the end of an array. -/
  | indexOutOfRange (index length : Nat)
  deriving Repr, DecidableEq

/-- An error of a running script and where it arose. -/
structure RuntimeError where
  fault : RuntimeFault
  span : Span
  deriving Repr, DecidableEq

namespace RuntimeFault

/-- The word of the negation in messages. -/
def negationWord : String := "negar"

/-- The stable code of an error. -/
def code : RuntimeFault → String
  | unknownName _ => "RT001"
  | alreadyDefined _ => "RT002"
  | notDefined _ => "RT003"
  | unsupportedOperator _ _ _ => "RT004"
  | nonBoolean _ => "RT005"
  | noLoop => "RT006"
  | noFunction => "RT007"
  | notCallable _ => "RT008"
  | notIndexable _ => "RT009"
  | notIterable _ => "RT010"
  | unreachableNode _ => "RT011"
  | invalidArgument _ _ => "RT012"
  | halted => "RT013"
  | unsupportedNegation _ => "RT014"
  | indexOutOfRange _ _ => "RT015"

/-- The message of an error. -/
def message : RuntimeFault → String
  | unknownName name => "Unknown name: " ++ name
  | alreadyDefined name => "Name already defined in this scope: " ++ name
  | notDefined name => "Assignment to undefined variable: " ++ name
  | unsupportedOperator op left right =>
    "Unsupported operator " ++ op.text ++ " between " ++ left.text ++ " and " ++ right.text
  | unsupportedNegation operand =>
    "Unsupported operator " ++ negationWord ++ " for " ++ operand.text
  | nonBoolean actual => "Expected a Boolean but got " ++ actual.text
  | noLoop => "No enclosing loop"
  | noFunction => "No enclosing function"
  | notCallable actual => "Value of type " ++ actual.text ++ " is not callable"
  | notIndexable actual => "Value of type " ++ actual.text ++ " can not be indexed"
  | notIterable actual => "Value of type " ++ actual.text ++ " can not be iterated"
  | unreachableNode node => "Node can not be evaluated here: " ++ node
  | invalidArgument name expected => "Invalid argument `" ++ name ++ "`: expected " ++ expected
  | halted => "Execution halted"
  | indexOutOfRange index length =>
    "Index " ++ natText index ++ " is too far past the end of an array of length " ++ natText length

/-- The structural dump of a fault. -/
def dump : RuntimeFault → String
  | unknownName name => dumpVariant "UnknownName" [quoted name]
  | alreadyDefined name => dumpVariant "AlreadyDefined" [quoted name]
  | notDefined name => dumpVariant "NotDefined" [quoted name]
  | unsupportedOperator op left right =>
    dumpRecord "UnsupportedOperator"
      [("operator", quoted op.text), ("lhs", quoted left.text), ("rhs", quoted right.text)]
  | unsupportedNegation operand =>
    dumpRecord "UnsupportedUnaryOperator"
      [("operator", quoted negationWord), ("operand", quoted operand.text)]
  | nonBoolean actual => dumpVariant "NonBoolean" [quoted actual.text]
  | noLoop => "NoLoopContext"
  | noFunction => "NoFunctionContext"
  | notCallable actual => dumpVariant "NotCallable" [quoted actual.text]
  | notIndexable actual => dumpVariant "NotIndexable" [quoted actual.text]
  | notIterable actual => dumpVariant "NotIterable" [quoted actual.text]
  | unreachableNode node => dumpVariant "UnreachableNode" [quoted node]
  | invalidArgument name expected =>
    dumpRecord "InvalidArgument" [("name", quoted name), ("expected", quoted expected)]
  | halted => "Halted"
  | indexOutOfRange index length =>
    dumpRecord "IndexOutOfRange" [("index", natText index), ("length", natText length)]

end RuntimeFault

/-- The structural dump of an error. -/
def RuntimeError.dump (e : RuntimeError) : String :=
  dumpRecord "RuntimeError" [("kind", e.fault.dump), ("span", e.span.dump)]

/-- The line of an error in a plain listing. -/
def RuntimeError.basic (lines : Lines) (e : RuntimeError) : String :=
  "(" ++ natText (lines.lineOf e.span) ++ ") " ++ e.fault.message

end Roteiro
