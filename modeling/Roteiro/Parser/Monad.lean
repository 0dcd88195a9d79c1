import Roteiro.Parser.Error
import Roteiro.Tree.Basic

/-!
Parsers over tokens. A parser takes the tokens ahead and answers with a result and the tokens it
left, or with an error and the tokens that were left when it arose. Parsers that call themselves
are given fuel; running out of it is a third answer, distinct from both.
-/

namespace Roteiro

/-- The tokens ahead, and the end of the source, which is seen when they are used up. -/
structure Tokens where
  ahead : List Token
  finish : Token

namespace Tokens

/-- The current token. -/
def peek (ts : Tokens) : Token :=
  match ts.ahead with
  | t :: _ => t
  | [] => ts.finish

/-- The token after the current one. -/
def peekSecond (ts : Tokens) : Token :=
  match ts.ahead with
  | _ :: t :: _ => t
  | _ => ts.finish

/-- The tokens after the current one; the end is never passed. -/
def advance (ts : Tokens) : Tokens :=
  { ts with ahead := ts.ahead.drop 1 }

end Tokens

/-- The answer of a parser. -/
inductive Parsed (α : Type) where
  | ok (value : α) (rest : Tokens)
  | fail (error : SyntaxError) (rest : Tokens)
  | exhausted

/-- A parser. -/
def Parse (α : Type) : Type :=
  Tokens → Parsed α

namespace Parse

/-- The parser that uses no token. -/
@[inline] protected def pure {α : Type} (a : α) : Parse α :=
  fun ts => .ok a ts

/-- One parser after another. -/
@[inline] protected def bind {α β : Type} (p : Parse α) (f : α → Parse β) : Parse β :=
  fun ts =>
    match p ts with
    | .ok a rest => f a rest
    | .fail e rest => .fail e rest
    | .exhausted => .exhausted

instance : Monad Parse where
  pure := Parse.pure
  bind := Parse.bind

/-- Out of fuel. -/
def exhausted {α : Type} : Parse α :=
  fun _ => .exhausted

/-- An error at the current token. -/
def fail {α : Type} (fault : SyntaxFault) (span : Span) : Parse α :=
  fun ts => .fail ⟨fault, span⟩ ts

/-- The current token, which is not used. -/
def peek : Parse Token :=
  fun ts => .ok ts.peek ts

/-- The token after the current one, neither being used. -/
def peekSecond : Parse Token :=
  fun ts => .ok ts.peekSecond ts

/-- Uses the current token. -/
def advance : Parse Token :=
  fun ts => .ok ts.peek ts.advance

/-- Uses the current token if it has the given kind. -/
def accept (kind : Kind) : Parse Bool :=
  fun ts => if ts.peek.kind = kind then .ok true ts.advance else .ok false ts

/-- Uses the current token, which must have the given kind. -/
def expect (kind : Kind) : Parse Token :=
  fun ts =>
    let t := ts.peek
    if t.kind = kind then .ok t ts.advance
    else if t.kind = .eof then .fail ⟨.unexpectedEnd, t.span⟩ ts
    else .fail ⟨.unexpectedToken t.kind kind, t.span⟩ ts

/-- Uses an identifier. -/
def ident : Parse Ident := do
  let t ← expect .identifier
  pure ⟨t.lexeme, t.span⟩

/-- The error of a token that starts no expression. -/
def nonExpression {α : Type} (t : Token) : Parse α :=
  fail (if t.kind = .eof then .unexpectedEnd else .nonExpression t.kind) t.span

/-- The result of a parser, or nothing if it fails without using a token. A failure further on is
kept. -/
def optional {α : Type} (p : Parse α) : Parse (Option α) :=
  fun ts =>
    match p ts with
    | .ok a rest => .ok (some a) rest
    | .fail e rest =>
      if rest.ahead.length = ts.ahead.length then .ok none ts else .fail e rest
    | .exhausted => .exhausted

end Parse

end Roteiro
