import Roteiro.Parser.Grammar
import Roteiro.Token.Lexer

/-!
Parsing source texts. A parser keeps its place in the source between calls: each call reads the
tokens from there to the end, or up to the next lexical error, and parses them as a whole script or
as a single expression.
-/

namespace Roteiro

/-- Tokens that end with the end of the source. -/
def Tokens.ofList (ts : List Token) : Tokens :=
  ⟨ts.dropLast, ts.getLast?.getD ⟨.eof, "", ⟨0, 0⟩, 1⟩⟩

/-- Fuel that suffices for the given tokens. -/
def Tokens.fuel (ts : Tokens) : Nat :=
  16 * (ts.ahead.length + 2)

/-- A parser at some place of a source. -/
structure Parser where
  /-- The span of the whole source. -/
  whole : Span
  lexer : Lexer

namespace Parser

/-- A parser at the start of a source. -/
def ofText (source : String) : Parser :=
  ⟨⟨0, source.utf8ByteSize⟩, .ofText source⟩

/-- The answer of a parser as a result or an error. The fuel given never runs out. -/
def outcome {α : Type} (ts : Tokens) : Parsed α → Except SyntaxError α
  | .ok a _ => .ok a
  | .fail e _ => .error e
  | .exhausted => .error ⟨.unexpectedEnd, ts.finish.span⟩

/-- Parses the tokens from here on. -/
def run {α : Type} (parser : Parser) (p : Nat → Parse α) : Except SyntaxError α × Parser :=
  match parser.lexer.tokens with
  | (.error e, lexer) => (.error (.ofLexical e), { parser with lexer })
  | (.ok list, lexer) =>
    let ts := Tokens.ofList list
    (outcome ts (p ts.fuel ts), { parser with lexer })

/-- Parses a script. Its span is that of the whole source, wherever the parser stood. -/
def program (parser : Parser) : Except SyntaxError Program × Parser :=
  let (result, after) := parser.run Parse.statements
  (result.map fun statements => ⟨statements, parser.whole⟩, after)

/-- Parses a single expression. -/
def expression (parser : Parser) : Except SyntaxError Expression × Parser :=
  parser.run Parse.expressionOnly

end Parser

/-- The script that a source text is. -/
def Program.ofText (source : String) : Except SyntaxError Program :=
  (Parser.ofText source).program.1

/-- The expression that a source text is. -/
def Expression.ofText (source : String) : Except SyntaxError Expression :=
  (Parser.ofText source).expression.1

end Roteiro
