import Roteiro.Token.Basic

/-!
Syntax errors: what was wrong and where.
-/

namespace Roteiro

open Decimal Text

/-- Why a source is not a script. -/
inductive SyntaxFault where
  /-- One kind of token was required and another was found. -/
  | unexpectedToken (actual expected : Kind)
  /-- An expression was required and this kind of token starts none. -/
  | nonExpression (kind : Kind)
  /-- The left side of an assignment is neither a name nor a property. -/
  | invalidTarget
  | unexpectedEnd
  | lexical (error : LexicalError)
  deriving Repr, DecidableEq

/-- A syntax error and where it stands. -/
structure SyntaxError where
  fault : SyntaxFault
  span : Span
  deriving Repr, DecidableEq

namespace SyntaxFault

/-- The stable code of an error; a lexical error keeps its own. -/
def code : SyntaxFault → String
  | unexpectedToken _ _ => "PA001"
  | nonExpression _ => "PA002"
  | invalidTarget => "PA003"
  | unexpectedEnd => "PA004"
  | lexical e => e.fault.code

/-- The message of an error. -/
def message : SyntaxFault → String
  | unexpectedToken actual expected =>
    "Expected " ++ expected.label ++ " but got token " ++ actual.label ++ "."
  | nonExpression kind => "Expected an expression but got token " ++ kind.label ++ "."
  | invalidTarget => "Only names and properties can be assigned to."
  | unexpectedEnd => "Expected a non-EOF token."
  | lexical e => "Encountered a lexer error " ++ e.fault.message ++ "."

/-- The structural dump of a fault. -/
def dump : SyntaxFault → String
  | unexpectedToken actual expected =>
    dumpRecord "UnexpectedToken" [("actual", actual.dump), ("expected", expected.dump)]
  | nonExpression kind => dumpVariant "NonExpression" [kind.dump]
  | invalidTarget => "InvalidAssignmentTarget"
  | unexpectedEnd => "UnexpectedEof"
  | lexical e => dumpVariant "LexicalError" [e.dump]

end SyntaxFault

namespace SyntaxError

/-- A lexical error met while parsing. -/
def ofLexical (e : LexicalError) : SyntaxError :=
  ⟨.lexical e, e.span⟩

/-- The structural dump of an error. -/
def dump (e : SyntaxError) : String :=
  dumpRecord "ParserError" [("kind", e.fault.dump), ("span", e.span.dump)]

/-- The line of an error in a plain listing. -/
def basic (lines : Lines) (e : SyntaxError) : String :=
  let line := "(" ++ natText (lines.lineOf e.span) ++ ") "
  match e.fault with
  | .unexpectedToken actual expected =>
    line ++ "Unexpected: A = " ++ actual.label ++ " E = " ++ expected.label
  | .nonExpression kind => line ++ "Non-Expression: " ++ kind.label
  | .invalidTarget => line ++ "Invalid assignment target"
  | .unexpectedEnd => line ++ "Unexpected EOF"
  | .lexical inner => inner.basic lines

end SyntaxError

end Roteiro
