import Roteiro.Decimal.Read
import Roteiro.Source.Lines
import Roteiro.Text.Quoted
import Roteiro.Token.Kind

/-!
Tokens and lexical errors, with the texts in which they are listed.
-/

namespace Roteiro

open Decimal Text

/-- A token: its kind, its text, and where it stands. -/
structure Token where
  kind : Kind
  lexeme : String
  span : Span
  line : Nat
  deriving Repr, DecidableEq

/-- Why no token could be read. -/
inductive LexicalFault where
  /-- A character that starts no token. -/
  | unrecognized (c : Char)
  /-- A string whose closing quote is missing. -/
  | unclosedString
  deriving Repr, DecidableEq

/-- A lexical error and where it stands. -/
structure LexicalError where
  fault : LexicalFault
  span : Span
  deriving Repr, DecidableEq

/-! ### literals -/

/-- The number that a numeric lexeme writes. -/
def numberOfLexeme (lexeme : String) : Float :=
  (read? lexeme.toList).getD (0.0 / 0.0)

/-- The text between the quotes of a string lexeme. -/
def stringOfLexeme (lexeme : String) : String :=
  String.ofList (lexeme.toList.drop 1).dropLast

/-! ### listings -/

/-- The label, the lexeme and the value of a token; only literals have a value. -/
def Token.describe (t : Token) : String :=
  match t.kind with
  | .eof => "EOF  null"
  | .number => "NUMBER " ++ t.lexeme ++ " " ++ Layout.dump.text (numberOfLexeme t.lexeme)
  | .string => "STRING " ++ t.lexeme ++ " " ++ stringOfLexeme t.lexeme
  | kind => kind.label ++ " " ++ t.lexeme ++ " null"

/-- A text moved to the right of a column of the given width. -/
def padLeft (width : Nat) (s : String) : String :=
  String.ofList (List.replicate (width - s.length) ' ') ++ s

/-- The line of a token in a plain listing. -/
def Token.basic (t : Token) : String :=
  "(" ++ natText t.line ++ ") " ++ t.describe

/-- The line of a token in a listing with a margin. -/
def Token.pretty (t : Token) : String :=
  padLeft 4 (natText t.line) ++ " | " ++ t.describe

/-- The structural dump of a token. -/
def Token.dump (t : Token) : String :=
  dumpRecord "Token"
    [("kind", t.kind.dump), ("span", t.span.dump), ("line", natText t.line)]

/-! ### errors -/

/-- The stable code of an error. -/
def LexicalFault.code : LexicalFault → String
  | unrecognized _ => "LX001"
  | unclosedString => "LX002"

/-- The message of an error. -/
def LexicalFault.message : LexicalFault → String
  | unrecognized c => "Unrecognized character " ++ c.toString
  | unclosedString => "Unterminated string literal"

/-- The structural dump of a fault. -/
def LexicalFault.dump : LexicalFault → String
  | unrecognized c => dumpVariant "Unrecognized" [quotedChar c]
  | unclosedString => "UnclosedString"

/-- The structural dump of an error. -/
def LexicalError.dump (e : LexicalError) : String :=
  dumpRecord "LexicalError" [("kind", e.fault.dump), ("span", e.span.dump)]

/-- The line of an error in a plain listing. -/
def LexicalError.basic (lines : Lines) (e : LexicalError) : String :=
  let line := natText (lines.lineOf e.span)
  match e.fault with
  | .unrecognized c => "(" ++ line ++ ") ERROR UNEXPECTED_CHAR " ++ c.toString
  | .unclosedString => "(" ++ line ++ ") ERROR UNTERMINATED_STRING null"

end Roteiro
