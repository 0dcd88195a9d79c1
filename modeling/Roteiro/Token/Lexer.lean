import Roteiro.Text.Alphabetic
import Roteiro.Text.Blank
import Roteiro.Text.Numeric
import Roteiro.Token.Basic

/-!
The lexer. It reads one token at a time: characters drive a small machine whose modes say what kind
of token is being read, and a token ends at the first character that cannot belong to it. That
character is left for the next token, and so is the point after a number when no digit follows it.
Errors do not stop the lexer, and once the source is used up every further token is the end.
-/

namespace Roteiro

open Text

/-- A place in a source: what is left to read, and the bytes before it. -/
structure Cursor where
  rest : List Char
  offset : Nat
  deriving Repr, DecidableEq

/-- The start of a source. -/
def Cursor.ofText (source : String) : Cursor :=
  ⟨source.toList, 0⟩

/-- What the machine is reading. -/
inductive Mode where
  | normal
  | identifier
  | number
  /-- A number and the point after it. -/
  | numberDot
  | fraction
  | string
  | comment
  | operator (first : Opening)
  deriving Repr, DecidableEq

/-- A token before its line is known. -/
structure Lexeme where
  kind : Kind
  text : String
  span : Span
  deriving Repr, DecidableEq

/-- A character that starts an identifier. -/
def startsIdentifier (c : Char) : Bool :=
  isAlphabetic c || c == '_'

/-- A character that continues an identifier. -/
def continuesIdentifier (c : Char) : Bool :=
  isAlphabetic c || isNumeric c || c == '_'

/-- What one reading yields: a lexeme or an error, and the place where it stopped. -/
abbrev Reading := Except LexicalError Lexeme × Cursor

/-- A lexeme from byte `start` to byte `stop`, its characters given last first. -/
def Lexeme.of (kind : Kind) (taken : List Char) (start stop : Nat) : Lexeme :=
  ⟨kind, String.ofList taken.reverse, .between start stop⟩

/-- The lexeme or error of an opening that no equals sign follows. -/
def Opening.reading (first : Opening) (taken : List Char) (start : Nat) :
    Except LexicalError Lexeme :=
  match first.alone? with
  | some s => .ok (.of (.symbol s) taken start (start + 1))
  | none => .error ⟨.unrecognized '!', ⟨start, 1⟩⟩

/-- Reads on in a mode. `start` is the byte where the token began and `taken` are its characters so
far, last first; then come the characters ahead and the byte where they stand. -/
def scan : Mode → Nat → List Char → List Char → Nat → Reading
  | .normal, _, _, [], pos => (.ok (.of .eof [] pos pos), ⟨[], pos⟩)
  | .normal, start, taken, c :: cs, pos =>
    let next := pos + c.utf8Size
    match Symbol.ofChar? c with
    | some s => (.ok (.of (.symbol s) [c] pos next), ⟨cs, next⟩)
    | none =>
      match Opening.ofChar? c with
      | some first => scan (.operator first) pos [c] cs next
      | none =>
        if c = '"' then scan .string pos [c] cs next
        else if c = '#' then scan .comment pos [] cs next
        else if c.isDigit then scan .number pos [c] cs next
        else if startsIdentifier c then scan .identifier pos [c] cs next
        else if isBlank c then scan .normal start taken cs next
        else (.error ⟨.unrecognized c, .between pos next⟩, ⟨cs, next⟩)
  | .identifier, start, taken, [], pos =>
    (.ok (.of (.ofWord (String.ofList taken.reverse)) taken start pos), ⟨[], pos⟩)
  | .identifier, start, taken, c :: cs, pos =>
    if continuesIdentifier c then scan .identifier start (c :: taken) cs (pos + c.utf8Size)
    else (.ok (.of (.ofWord (String.ofList taken.reverse)) taken start pos), ⟨c :: cs, pos⟩)
  | .number, start, taken, [], pos => (.ok (.of .number taken start pos), ⟨[], pos⟩)
  | .number, start, taken, c :: cs, pos =>
    if c.isDigit then scan .number start (c :: taken) cs (pos + c.utf8Size)
    else if c = '.' then scan .numberDot start taken cs (pos + c.utf8Size)
    else (.ok (.of .number taken start pos), ⟨c :: cs, pos⟩)
  | .numberDot, start, taken, [], pos =>
    (.ok (.of .number taken start (pos - 1)), ⟨['.'], pos - 1⟩)
  | .numberDot, start, taken, c :: cs, pos =>
    if c.isDigit then scan .fraction start (c :: '.' :: taken) cs (pos + c.utf8Size)
    else (.ok (.of .number taken start (pos - 1)), ⟨'.' :: c :: cs, pos - 1⟩)
  | .fraction, start, taken, [], pos => (.ok (.of .number taken start pos), ⟨[], pos⟩)
  | .fraction, start, taken, c :: cs, pos =>
    if c.isDigit then scan .fraction start (c :: taken) cs (pos + c.utf8Size)
    else (.ok (.of .number taken start pos), ⟨c :: cs, pos⟩)
  | .string, start, _, [], pos => (.error ⟨.unclosedString, .between start pos⟩, ⟨[], pos⟩)
  | .string, start, taken, c :: cs, pos =>
    let next := pos + c.utf8Size
    if c = '"' then (.ok (.of .string (c :: taken) start next), ⟨cs, next⟩)
    else scan .string start (c :: taken) cs next
  | .comment, _, _, [], pos => (.ok (.of .eof [] pos pos), ⟨[], pos⟩)
  | .comment, start, taken, c :: cs, pos =>
    if c = '\n' then scan .normal start taken cs (pos + c.utf8Size)
    else scan .comment start taken cs (pos + c.utf8Size)
  | .operator first, start, taken, [], pos => (first.reading taken start, ⟨[], pos⟩)
  | .operator first, start, taken, c :: cs, pos =>
    let next := pos + c.utf8Size
    if c = '=' then (.ok (.of (.symbol first.withEqual) (c :: taken) start next), ⟨cs, next⟩)
    else (first.reading taken start, ⟨c :: cs, pos⟩)

/-- The next token, without its line. -/
def Cursor.read (cursor : Cursor) : Reading :=
  scan .normal cursor.offset [] cursor.rest cursor.offset

/-- A lexer: the lines of the source and the place reached in it. -/
structure Lexer where
  lines : Lines
  cursor : Cursor

namespace Lexer

/-- A lexer at the start of a source. -/
def ofText (source : String) : Lexer :=
  ⟨.ofText source, .ofText source⟩

/-- The next token or error, and the lexer after it. -/
def next (lexer : Lexer) : Except LexicalError Token × Lexer :=
  let (lexeme, cursor) := lexer.cursor.read
  (lexeme.map fun l => ⟨l.kind, l.text, l.span, lexer.lines.lineOf l.span⟩, { lexer with cursor })

/-- The tokens and errors up to the end, which is the last item. Each item but the end takes at
least one character, so `fuel` need only exceed the number of characters left. -/
def itemsWithin : Nat → Lexer → List (Except LexicalError Token) × Lexer
  | 0, lexer => ([], lexer)
  | fuel + 1, lexer =>
    match lexer.next with
    | (.error e, after) =>
      let (items, last) := itemsWithin fuel after
      (.error e :: items, last)
    | (.ok token, after) =>
      if token.kind = .eof then ([.ok token], after)
      else
        let (items, last) := itemsWithin fuel after
        (.ok token :: items, last)

/-- All tokens and errors from here on, the end being the last item. -/
def items (lexer : Lexer) : List (Except LexicalError Token) × Lexer :=
  lexer.itemsWithin (lexer.cursor.rest.length + 1)

/-- The tokens up to the end or the first error. -/
def tokensWithin : Nat → Lexer → Except LexicalError (List Token) × Lexer
  | 0, lexer => (.ok [], lexer)
  | fuel + 1, lexer =>
    match lexer.next with
    | (.error e, after) => (.error e, after)
    | (.ok token, after) =>
      if token.kind = .eof then (.ok [token], after)
      else
        let (tokens, last) := tokensWithin fuel after
        (tokens.map (token :: ·), last)

/-- The tokens from here to the end, or the first error on the way; the lexer then stands right
after the error. -/
def tokens (lexer : Lexer) : Except LexicalError (List Token) × Lexer :=
  lexer.tokensWithin (lexer.cursor.rest.length + 1)

end Lexer

/-- All tokens and errors of a source. -/
def tokenize (source : String) : List (Except LexicalError Token) :=
  (Lexer.ofText source).items.1

end Roteiro
