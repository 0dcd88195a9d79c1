import Roteiro.Parser.Error
import Roteiro.Value.Error

/-!
Reports: errors as they are shown to a person, with a title and a label for the place in the
source. The words that matter in a label are coloured.
-/

namespace Roteiro

open Decimal Text

/-- A report: its title, and the label of the place it is about. -/
structure Report where
  title : String
  label : String
  deriving Repr, DecidableEq

/-- The colours of labels, as terminal colour codes. -/
inductive Colour where
  | brightRed
  | brightYellow
  | brightCyan
  /-- The colours of a left and of a right operand. -/
  | leftOperand
  | rightOperand
  deriving Repr, DecidableEq

/-- The terminal code of a colour. -/
def Colour.code : Colour → String
  | brightRed => "91"
  | brightYellow => "93"
  | brightCyan => "96"
  | leftOperand => "38;5;201"
  | rightOperand => "38;5;155"

/-- A text in a colour. -/
def Colour.paint (c : Colour) (text : String) : String :=
  "\x1b[" ++ c.code ++ "m" ++ text ++ "\x1b[0m"

/-- The report of an error with the given code. -/
def Report.of (code message label : String) : Report :=
  ⟨"[" ++ code ++ "] Error: " ++ message, label⟩

/-- The report of a lexical error. -/
def LexicalError.report (e : LexicalError) : Report :=
  match e.fault with
  | .unrecognized c =>
    .of e.fault.code "Encountered an unrecognized character"
      ("The character " ++ quotedChar c ++ " does not start any token")
  | .unclosedString =>
    .of e.fault.code "Encountered an unterminated string" "The string starting here never ends"

/-- The report of a syntax error. -/
def SyntaxError.report (e : SyntaxError) : Report :=
  match e.fault with
  | .unexpectedToken actual expected =>
    .of e.fault.code "Expected a different token"
      ("Expected " ++ expected.label ++ " but got " ++ actual.label)
  | .nonExpression kind =>
    .of e.fault.code "Expected a valid expression operator or atom token"
      ("Not an expression token " ++ kind.label)
  | .invalidTarget =>
    .of e.fault.code "Expected a name or a property to assign to"
      "Cannot assign to this expression"
  | .unexpectedEnd => .of e.fault.code "Unexpected EOF" "File ends here..."
  | .lexical inner => inner.report

/-- The message and the label of a fault. -/
def RuntimeFault.description : RuntimeFault → String × String
  | unknownName name =>
    ("Attempted to access a name that has not been defined",
      Colour.brightRed.paint name ++ " has not been defined.")
  | alreadyDefined name =>
    ("Attempted to declare a name twice in the same scope",
      Colour.brightYellow.paint name ++ " is already defined here.")
  | notDefined name =>
    ("Attempted to assign to a variable that has not been declared",
      Colour.brightRed.paint name ++ " has not been declared.")
  | unsupportedOperator op left right =>
    ("Operator is not defined for these operand types",
      Colour.brightCyan.paint op.text ++ " can not be applied to "
        ++ Colour.leftOperand.paint left.text ++ " and "
        ++ Colour.rightOperand.paint right.text ++ ".")
  | unsupportedNegation operand =>
    ("Operator is not defined for this operand type",
      Colour.brightCyan.paint negationWord ++ " can not be applied to "
        ++ Colour.brightRed.paint operand.text ++ ".")
  | nonBoolean actual =>
    ("Expected a Boolean condition",
      "Type is " ++ Colour.brightRed.paint actual.text ++ " instead of Boolean")
  | noLoop => ("Loop control used outside of a loop", "There is no enclosing loop.")
  | noFunction => ("Return used outside of a function", "There is no enclosing function.")
  | notCallable actual =>
    ("Attempted to call a value that is not callable",
      Colour.brightRed.paint actual.text ++ " is not callable.")
  | notIndexable actual =>
    ("Attempted to index a value that has no properties",
      Colour.brightRed.paint actual.text ++ " can not be indexed.")
  | notIterable actual =>
    ("Attempted to iterate over a value that is not a collection",
      Colour.brightRed.paint actual.text ++ " can not be iterated.")
  | unreachableNode node =>
    ("Encountered a node that can not be evaluated here",
      Colour.brightRed.paint node ++ " reached the wrong evaluator.")
  | invalidArgument name expected =>
    ("Built-in received an invalid argument",
      "`" ++ Colour.brightYellow.paint name ++ "` should be "
        ++ Colour.brightCyan.paint expected ++ ".")
  | halted => ("Execution was halted", "Stopped while evaluating this.")
  | indexOutOfRange index length =>
    ("Array write is too far past the end",
      "Index " ++ Colour.brightRed.paint (natText index) ++ " is beyond length "
        ++ Colour.brightCyan.paint (natText length) ++ ".")

/-- The report of an error of a running script. -/
def RuntimeError.report (e : RuntimeError) : Report :=
  let (message, label) := e.fault.description
  .of e.fault.code message label

end Roteiro
