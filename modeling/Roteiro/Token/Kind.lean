/-!
The kinds of token: symbols, keywords, literals, identifiers and the end of the source. Each kind
has a label, used in listings and messages, and a constructor name, used in structural dumps.
-/

namespace Roteiro

/-- Punctuation and operators. -/
inductive Symbol where
  | leftParen
  | rightParen
  | leftBracket
  | rightBracket
  | leftBrace
  | rightBrace
  | comma
  | dot
  | minus
  | plus
  | star
  | slash
  | percent
  | equal
  | equalEqual
  | bangEqual
  | less
  | lessEqual
  | greater
  | greaterEqual
  deriving Repr, DecidableEq

/-- The reserved words, each named by its plain spelling. -/
inductive Keyword where
  | faca
  | fim
  | parar
  | continuar
  | retorna
  | declarar
  | bloco
  | enquanto
  | para
  | funcao
  | se
  | caso
  | senao
  | e
  | ou
  | de
  | ate
  | opere
  | cada
  | em
  | negar
  | verdadeiro
  | falso
  | nulo
  deriving Repr, DecidableEq

/-- The kind of a token. -/
inductive Kind where
  | symbol (s : Symbol)
  | keyword (k : Keyword)
  | number
  | string
  | identifier
  | eof
  deriving Repr, DecidableEq

/-! ### labels -/

/-- The label of a symbol. -/
def Symbol.label : Symbol → String
  | leftParen => "LEFT_PAREN"
  | rightParen => "RIGHT_PAREN"
  | leftBracket => "LEFT_BRACKET"
  | rightBracket => "RIGHT_BRACKET"
  | leftBrace => "LEFT_BRACE"
  | rightBrace => "RIGHT_BRACE"
  | comma => "COMMA"
  | dot => "DOT"
  | minus => "MINUS"
  | plus => "PLUS"
  | star => "STAR"
  | slash => "SLASH"
  | percent => "PERCENT"
  | equal => "EQUAL"
  | equalEqual => "EQUAL_EQUAL"
  | bangEqual => "BANG_EQUAL"
  | less => "LESS"
  | lessEqual => "LESS_EQUAL"
  | greater => "GREATER"
  | greaterEqual => "GREATER_EQUAL"

/-- The label of a keyword. -/
def Keyword.label : Keyword → String
  | faca => "DO"
  | fim => "END"
  | parar => "BREAK"
  | continuar => "CONTINUE"
  | retorna => "RETURN"
  | declarar => "DECLARE"
  | bloco => "BLOCK"
  | enquanto => "WHILE"
  | para => "FOR"
  | funcao => "FUNCTION"
  | se => "IF"
  | caso => "ELSE_IF"
  | senao => "ELSE"
  | e => "AND"
  | ou => "OR"
  | de => "FROM"
  | ate => "UNTIL"
  | opere => "OPERATE"
  | cada => "EACH"
  | em => "IN"
  | negar => "NOT"
  | verdadeiro => "TRUE"
  | falso => "FALSE"
  | nulo => "NULL"

/-- The label of a kind. -/
def Kind.label : Kind → String
  | symbol s => s.label
  | keyword k => k.label
  | number => "NUMBER"
  | string => "STRING"
  | identifier => "IDENTIFIER"
  | eof => "EOF"

/-! ### dumps -/

/-- The structural dump of a symbol. -/
def Symbol.dump : Symbol → String
  | leftParen => "LeftParenthesis"
  | rightParen => "RightParenthesis"
  | leftBracket => "LeftBracket"
  | rightBracket => "RightBracket"
  | leftBrace => "LeftBrace"
  | rightBrace => "RightBrace"
  | comma => "Comma"
  | dot => "Dot"
  | minus => "Minus"
  | plus => "Plus"
  | star => "Star"
  | slash => "Slash"
  | percent => "Percent"
  | equal => "Equal"
  | equalEqual => "EqualEqual"
  | bangEqual => "BangEqual"
  | less => "LessThan"
  | lessEqual => "LessThanEqual"
  | greater => "GreaterThan"
  | greaterEqual => "GreaterThanEqual"

/-- The structural dump of a keyword. -/
def Keyword.dump : Keyword → String
  | faca => "KeywordDo"
  | fim => "KeywordEnd"
  | parar => "KeywordBreak"
  | continuar => "KeywordContinue"
  | retorna => "KeywordReturn"
  | declarar => "KeywordDeclare"
  | bloco => "KeywordBlock"
  | enquanto => "KeywordWhile"
  | para => "KeywordFor"
  | funcao => "KeywordFunction"
  | se => "KeywordIf"
  | caso => "KeywordElseIf"
  | senao => "KeywordElse"
  | e => "KeywordAnd"
  | ou => "KeywordOr"
  | de => "KeywordFrom"
  | ate => "KeywordUntil"
  | opere => "KeywordOperate"
  | cada => "KeywordEach"
  | em => "KeywordIn"
  | negar => "KeywordNot"
  | verdadeiro => "KeywordTrue"
  | falso => "KeywordFalse"
  | nulo => "KeywordNull"

/-- The structural dump of a kind. -/
def Kind.dump : Kind → String
  | symbol s => s.dump
  | keyword k => k.dump
  | number => "NumericLiteral"
  | string => "StringLiteral"
  | identifier => "Ident"
  | eof => "Eof"

/-! ### spellings -/

/-- The reserved words and their kinds; a word may be written with or without its accents. -/
def Keyword.spellings : List (String × Keyword) := [
  ("faca", faca), ("faça", faca), ("fim", fim), ("parar", parar), ("continuar", continuar),
  ("retorna", retorna), ("declarar", declarar), ("bloco", bloco), ("enquanto", enquanto),
  ("para", para), ("funcao", funcao), ("função", funcao), ("se", se), ("caso", caso),
  ("senao", senao), ("senão", senao), ("e", e), ("ou", ou), ("de", de), ("ate", ate), ("até", ate),
  ("opere", opere), ("cada", cada), ("em", em), ("negar", negar), ("verdadeiro", verdadeiro),
  ("falso", falso), ("nulo", nulo)]

/-- The keyword that a word spells. -/
def Keyword.ofWord? (word : String) : Option Keyword :=
  spellings.lookup word

/-- The kind of an identifier-like word: a keyword if it spells one. -/
def Kind.ofWord (word : String) : Kind :=
  match Keyword.ofWord? word with
  | some k => .keyword k
  | none => .identifier

/-- Whether a kind is that of a reserved word. -/
def Kind.isKeyword : Kind → Bool
  | keyword _ => true
  | _ => false

/-- The symbol that a character is on its own and that no further character extends. -/
def Symbol.ofChar? : Char → Option Symbol
  | '(' => some leftParen
  | ')' => some rightParen
  | '[' => some leftBracket
  | ']' => some rightBracket
  | '{' => some leftBrace
  | '}' => some rightBrace
  | ',' => some comma
  | '.' => some dot
  | '-' => some minus
  | '+' => some plus
  | '*' => some star
  | '/' => some slash
  | '%' => some percent
  | _ => none

/-- The characters that start a symbol of one character or, with an equals sign, of two. -/
inductive Opening where
  | equal
  | bang
  | less
  | greater
  deriving Repr, DecidableEq

namespace Opening

/-- The opening that a character is. -/
def ofChar? : Char → Option Opening
  | '=' => some equal
  | '!' => some bang
  | '<' => some less
  | '>' => some greater
  | _ => none

/-- The symbol that the opening is on its own; the exclamation mark is none. -/
def alone? : Opening → Option Symbol
  | equal => some .equal
  | bang => none
  | less => some .less
  | greater => some .greater

/-- The symbol that the opening makes with an equals sign. -/
def withEqual : Opening → Symbol
  | equal => .equalEqual
  | bang => .bangEqual
  | less => .lessEqual
  | greater => .greaterEqual

end Opening

end Roteiro
