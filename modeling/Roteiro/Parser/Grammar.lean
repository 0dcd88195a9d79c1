import Roteiro.Parser.Monad

/-!
The grammar of scripts, by recursive descent. Binary operators stand on four tiers and associate to
the left; inside them come the two negations, then calls and properties, then leaves, literals and
parentheses. The commas of argument lists, arrays, dictionaries and parameter lists are optional.

The functions call one another with one unit of fuel less each time. Between two calls at the same
depth of nesting a token is used, so fuel in proportion to the number of tokens is enough.
-/

namespace Roteiro.Parse

/-- The operator of a tier that a token stands for. -/
def operator? : Tier → Kind → Option Operator
  | .logical, .keyword .e => some .and
  | .logical, .keyword .ou => some .or
  | .comparison, .symbol .equalEqual => some .equal
  | .comparison, .symbol .bangEqual => some .notEqual
  | .comparison, .symbol .greater => some .greater
  | .comparison, .symbol .greaterEqual => some .greaterEqual
  | .comparison, .symbol .less => some .less
  | .comparison, .symbol .lessEqual => some .lessEqual
  | .additive, .symbol .plus => some .add
  | .additive, .symbol .minus => some .subtract
  | .multiplicative, .symbol .star => some .multiply
  | .multiplicative, .symbol .slash => some .divide
  | .multiplicative, .symbol .percent => some .modulo
  | _, _ => none

/-- The leaf that a token is, if it is one. -/
def atom? (t : Token) : Option Atom :=
  match t.kind with
  | .number => some (.number (numberOfLexeme t.lexeme))
  | .string => some (.string (stringOfLexeme t.lexeme))
  | .identifier => some (.identifier ⟨t.lexeme, t.span⟩)
  | .keyword .verdadeiro => some (.boolean true)
  | .keyword .falso => some (.boolean false)
  | .keyword .nulo => some .null
  | _ => none

/-- What an expression on the left of an assignment writes to. -/
def target (e : Expression) : Parse Target :=
  match e with
  | .atom (.identifier name) _ => pure (.name name)
  | .property object key _ => pure (.property object key)
  | _ => fail .invalidTarget e.span

/-- The parameters of a routine. -/
def parameters : Nat → Parse (List Ident)
  | 0 => exhausted
  | fuel + 1 => do
    if (← peek).kind = .identifier then
      let name ← ident
      let _ ← accept (.symbol .comma)
      let rest ← parameters fuel
      pure (name :: rest)
    else pure []

mutual

/-- An expression. -/
def expression : Nat → Parse Expression
  | 0 => exhausted
  | fuel + 1 => operation fuel .logical

/-- Operands of one tier joined by its operators. -/
def operation : Nat → Tier → Parse Expression
  | 0, _ => exhausted
  | fuel + 1, tier => do
    let left ← operand fuel tier
    chain fuel tier left

/-- An operand of a tier: an operation of the next one. -/
def operand : Nat → Tier → Parse Expression
  | 0, _ => exhausted
  | fuel + 1, .logical => operation fuel .comparison
  | fuel + 1, .comparison => operation fuel .additive
  | fuel + 1, .additive => operation fuel .multiplicative
  | fuel + 1, .multiplicative => factor fuel

/-- The operators of a tier that follow an operand, and their right operands. -/
def chain : Nat → Tier → Expression → Parse Expression
  | 0, _, _ => exhausted
  | fuel + 1, tier, left => do
    match operator? tier (← peek).kind with
    | none => pure left
    | some op =>
      let _ ← advance
      let right ← operand fuel tier
      chain fuel tier (.binary op left right (left.span.merge right.span))

/-- Negations in front of a postfix expression; the word and the sign mean the same. -/
def factor : Nat → Parse Expression
  | 0 => exhausted
  | fuel + 1 => do
    let t ← peek
    if t.kind = .keyword .negar ∨ t.kind = .symbol .minus then
      let _ ← advance
      let operand ← factor fuel
      pure (.negate operand (t.span.merge operand.span))
    else
      let head ← primary fuel
      suffixes fuel head

/-- The calls and properties that follow an expression. -/
def suffixes : Nat → Expression → Parse Expression
  | 0, _ => exhausted
  | fuel + 1, head => do
    match (← peek).kind with
    | .symbol .leftParen =>
      let _ ← advance
      let arguments ← sequence fuel (.symbol .rightParen)
      let close ← expect (.symbol .rightParen)
      suffixes fuel (.call head arguments (head.span.merge close.span))
    | .symbol .dot =>
      let _ ← advance
      let name ← ident
      suffixes fuel
        (.property head (.atom (.string name.text) name.span) (head.span.merge name.span))
    | .symbol .leftBracket =>
      let _ ← advance
      let key ← expression fuel
      let close ← expect (.symbol .rightBracket)
      suffixes fuel (.property head key (head.span.merge close.span))
    | _ => pure head

/-- Leaves, literals and parentheses. -/
def primary : Nat → Parse Expression
  | 0 => exhausted
  | fuel + 1 => do
    let t ← peek
    match atom? t with
    | some atom =>
      let _ ← advance
      pure (.atom atom t.span)
    | none =>
      match t.kind with
      | .symbol .leftParen =>
        let _ ← advance
        let inner ← expression fuel
        let _ ← expect (.symbol .rightParen)
        pure inner
      | .symbol .leftBracket =>
        let _ ← advance
        let items ← sequence fuel (.symbol .rightBracket)
        let close ← expect (.symbol .rightBracket)
        pure (.array items (t.span.merge close.span))
      | .symbol .leftBrace =>
        let _ ← advance
        let entries ← entries fuel
        let close ← expect (.symbol .rightBrace)
        pure (.dictionary entries (t.span.merge close.span))
      | .keyword .funcao =>
        let routine ← routine fuel false
        pure (.function routine)
      | _ => nonExpression t

/-- Expressions up to a closing token or the end. -/
def sequence : Nat → Kind → Parse (List Expression)
  | 0, _ => exhausted
  | fuel + 1, close => do
    let kind := (← peek).kind
    if kind = close ∨ kind = .eof then pure []
    else
      let item ← expression fuel
      let _ ← accept (.symbol .comma)
      let rest ← sequence fuel close
      pure (item :: rest)

/-- The entries of a dictionary up to its closing brace. -/
def entries : Nat → Parse (List Entry)
  | 0 => exhausted
  | fuel + 1 => do
    if (← peek).kind = .symbol .rightBrace then pure []
    else
      let key ← key fuel
      let _ ← expect (.symbol .equal)
      let value ← expression fuel
      let _ ← accept (.symbol .comma)
      let rest ← entries fuel
      pure (.mk key value :: rest)

/-- The key of an entry. A name alone, in brackets or not, stands for itself. -/
def key : Nat → Parse Key
  | 0 => exhausted
  | fuel + 1 => do
    if ← accept (.symbol .leftBracket) then
      let key ←
        if (← peek).kind = .identifier ∧ (← peekSecond).kind = .symbol .rightBracket then do
          pure (Key.name (← ident))
        else do
          pure (Key.computed (← expression fuel))
      let _ ← expect (.symbol .rightBracket)
      pure key
    else if (← peek).kind = .identifier then
      pure (.name (← ident))
    else nonExpression (← peek)

/-- A routine, with or without a name. -/
def routine : Nat → Bool → Parse Routine
  | 0, _ => exhausted
  | fuel + 1, named => do
    let start ← expect (.keyword .funcao)
    let name ← if named then do pure (some (← ident)) else pure none
    let _ ← expect (.symbol .leftParen)
    let parameters ← parameters fuel
    let _ ← expect (.symbol .rightParen)
    let body ← body fuel
    let close ← expect (.keyword .fim)
    pure (.mk name parameters body (start.span.merge close.span))

/-- The statements of a body, up to and without its closing word. -/
def body : Nat → Parse (List Statement)
  | 0 => exhausted
  | fuel + 1 => do
    if (← peek).kind = .keyword .fim then pure []
    else
      let first ← statement fuel
      let rest ← body fuel
      pure (first :: rest)

/-- A statement. -/
def statement : Nat → Parse Statement
  | 0 => exhausted
  | fuel + 1 => do
    let t ← peek
    match t.kind with
    | .keyword .declarar =>
      let _ ← advance
      let name ← ident
      let _ ← expect (.symbol .equal)
      let value ← expression fuel
      pure (.declaration name value (t.span.merge value.span))
    | .keyword .bloco =>
      let _ ← advance
      let body ← body fuel
      let close ← expect (.keyword .fim)
      pure (.block body (t.span.merge close.span))
    | .keyword .enquanto =>
      let _ ← advance
      let condition ← expression fuel
      let _ ← expect (.keyword .faca)
      let body ← body fuel
      let close ← expect (.keyword .fim)
      pure (.whileLoop condition body (t.span.merge close.span))
    | .keyword .para =>
      let _ ← advance
      if ← accept (.keyword .cada) then eachLoop fuel t else countLoop fuel t
    | .keyword .se =>
      let _ ← advance
      conditional fuel t
    | .keyword .parar =>
      let _ ← advance
      pure (.breakLoop t.span)
    | .keyword .continuar =>
      let _ ← advance
      pure (.continueLoop t.span)
    | .keyword .retorna =>
      let _ ← advance
      returnValues fuel t
    | .keyword .funcao =>
      if (← peekSecond).kind = .identifier then
        let routine ← routine fuel true
        pure (.function routine)
      else expressionStatement fuel
    | _ => expressionStatement fuel

/-- An expression on its own, or an assignment to it. -/
def expressionStatement : Nat → Parse Statement
  | 0 => exhausted
  | fuel + 1 => do
    let left ← expression fuel
    if ← accept (.symbol .equal) then
      let value ← expression fuel
      let target ← target left
      pure (.assignment (.mk target value (left.span.merge value.span)))
    else pure (.expression left)

/-- An assignment. -/
def assignment : Nat → Parse Assignment
  | 0 => exhausted
  | fuel + 1 => do
    let left ← expression fuel
    let _ ← expect (.symbol .equal)
    let value ← expression fuel
    let target ← target left
    pure (.mk target value (left.span.merge value.span))

/-- An expression behind a keyword that may be missing. -/
def clause : Nat → Keyword → Parse (Option Expression)
  | 0, _ => exhausted
  | fuel + 1, keyword => do
    if ← accept (.keyword keyword) then
      let e ← expression fuel
      pure (some e)
    else pure none

/-- A loop over a counter, after its first word. -/
def countLoop : Nat → Token → Parse Statement
  | 0, _ => exhausted
  | fuel + 1, start => do
    let counter ← ident
    let first ← clause fuel .de
    let limit ← clause fuel .ate
    let step ←
      if ← accept (.keyword .opere) then do pure (some (← assignment fuel)) else pure none
    let _ ← expect (.keyword .faca)
    let body ← body fuel
    let close ← expect (.keyword .fim)
    pure (.countLoop counter first limit step body (start.span.merge close.span))

/-- A loop over a collection, after its first two words. -/
def eachLoop : Nat → Token → Parse Statement
  | 0, _ => exhausted
  | fuel + 1, start => do
    let key ← ident
    let _ ← expect (.symbol .comma)
    let value ← ident
    let _ ← expect (.keyword .em)
    let collection ← expression fuel
    let _ ← expect (.keyword .faca)
    let body ← body fuel
    let close ← expect (.keyword .fim)
    pure (.eachLoop key value collection body (start.span.merge close.span))

/-- A conditional, after its first word. -/
def conditional : Nat → Token → Parse Statement
  | 0, _ => exhausted
  | fuel + 1, start => do
    let (branches, close) ← branches fuel
    if ← accept (.keyword .senao) then
      let _ ← expect (.keyword .faca)
      let otherwise ← body fuel
      let close ← expect (.keyword .fim)
      pure (.conditional branches (some otherwise) (start.span.merge close.span))
    else pure (.conditional branches none (start.span.merge close.span))

/-- The branches of a conditional, and the closing word of the last one. -/
def branches : Nat → Parse (List Branch × Token)
  | 0 => exhausted
  | fuel + 1 => do
    let condition ← expression fuel
    let _ ← expect (.keyword .faca)
    let body ← body fuel
    let close ← expect (.keyword .fim)
    if ← accept (.keyword .caso) then
      let (rest, last) ← branches fuel
      pure (.mk condition body :: rest, last)
    else pure ([.mk condition body], close)

/-- The values of a return, after its word. There may be none, so the first one is tried. -/
def returnValues : Nat → Token → Parse Statement
  | 0, _ => exhausted
  | fuel + 1, start => do
    match ← optional (expression fuel) with
    | none => pure (.returnValues [] start.span)
    | some first =>
      let rest ← moreValues fuel
      let values := first :: rest
      pure (.returnValues values (values.foldl (fun s e => s.merge e.span) start.span))

/-- Further expressions, each behind a comma. -/
def moreValues : Nat → Parse (List Expression)
  | 0 => exhausted
  | fuel + 1 => do
    if ← accept (.symbol .comma) then
      let e ← expression fuel
      let rest ← moreValues fuel
      pure (e :: rest)
    else pure []

end

/-- The statements of a script, up to the end. -/
def statements : Nat → Parse (List Statement)
  | 0 => exhausted
  | fuel + 1 => do
    if (← peek).kind = .eof then pure []
    else
      let first ← statement fuel
      let rest ← statements fuel
      pure (first :: rest)

/-- An expression and nothing after it. -/
def expressionOnly (fuel : Nat) : Parse Expression := do
  let e ← expression fuel
  let _ ← expect .eof
  pure e

end Roteiro.Parse
