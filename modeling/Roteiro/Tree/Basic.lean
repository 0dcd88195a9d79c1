import Roteiro.Source.Span

/-!
The syntax tree of a script. Every node knows the span it was read from; the trees of expressions,
routines and statements are defined together, because a routine written inside an expression has
statements for its body.
-/

namespace Roteiro

/-- A name as it stands in the source. -/
structure Ident where
  text : String
  span : Span
  deriving Repr, DecidableEq

/-- The leaves of expressions. -/
inductive Atom where
  | null
  | number (value : Float)
  | string (value : String)
  | boolean (value : Bool)
  | identifier (name : Ident)

/-- The binary operators. -/
inductive Operator where
  | and
  | or
  | equal
  | notEqual
  | greater
  | greaterEqual
  | less
  | lessEqual
  | add
  | subtract
  | multiply
  | divide
  | modulo
  deriving Repr, DecidableEq

/-- The levels of precedence of the binary operators, loosest first. -/
inductive Tier where
  | logical
  | comparison
  | additive
  | multiplicative
  deriving Repr, DecidableEq

/-- The level of an operator. -/
def Operator.tier : Operator → Tier
  | and | or => .logical
  | equal | notEqual | greater | greaterEqual | less | lessEqual => .comparison
  | add | subtract => .additive
  | multiply | divide | modulo => .multiplicative

mutual

/-- An expression. -/
inductive Expression where
  | atom (atom : Atom) (span : Span)
  | array (items : List Expression) (span : Span)
  | dictionary (entries : List Entry) (span : Span)
  /-- A routine without a name; its span is the routine's. -/
  | function (routine : Routine)
  /-- Negation of a number or a truth value. -/
  | negate (operand : Expression) (span : Span)
  | binary (operator : Operator) (left right : Expression) (span : Span)
  | call (callee : Expression) (arguments : List Expression) (span : Span)
  | property (object key : Expression) (span : Span)

/-- An entry of a dictionary literal. -/
inductive Entry where
  | mk (key : Key) (value : Expression)

/-- The key of an entry: a name stands for itself, anything else is evaluated. -/
inductive Key where
  | name (name : Ident)
  | computed (key : Expression)

/-- A function as it is written: its name if it has one, its parameters and its body. -/
inductive Routine where
  | mk (name : Option Ident) (parameters : List Ident) (body : List Statement) (span : Span)

/-- What an assignment writes to. -/
inductive Target where
  | name (name : Ident)
  | property (object key : Expression)

/-- An assignment. -/
inductive Assignment where
  | mk (target : Target) (value : Expression) (span : Span)

/-- A condition and the statements it guards. -/
inductive Branch where
  | mk (condition : Expression) (body : List Statement)

/-- A statement. -/
inductive Statement where
  | declaration (name : Ident) (value : Expression) (span : Span)
  | assignment (assignment : Assignment)
  | expression (expression : Expression)
  | block (body : List Statement) (span : Span)
  | whileLoop (condition : Expression) (body : List Statement) (span : Span)
  /-- A loop over a counter, with an optional first value, limit and step. -/
  | countLoop (counter : Ident) (first limit : Option Expression) (step : Option Assignment)
      (body : List Statement) (span : Span)
  /-- A loop over the entries of a collection. -/
  | eachLoop (key value : Ident) (collection : Expression) (body : List Statement) (span : Span)
  | function (routine : Routine)
  /-- Branches tried in order, and what to do when none is taken. -/
  | conditional (branches : List Branch) (otherwise : Option (List Statement)) (span : Span)
  | breakLoop (span : Span)
  | continueLoop (span : Span)
  | returnValues (values : List Expression) (span : Span)

end

/-- A script: its statements, and the span of the whole source. -/
structure Program where
  statements : List Statement
  span : Span

/-! ### parts of nodes -/

namespace Routine

def name : Routine → Option Ident
  | mk name _ _ _ => name

def parameters : Routine → List Ident
  | mk _ parameters _ _ => parameters

def body : Routine → List Statement
  | mk _ _ body _ => body

def span : Routine → Span
  | mk _ _ _ span => span

end Routine

namespace Assignment

def target : Assignment → Target
  | mk target _ _ => target

def value : Assignment → Expression
  | mk _ value _ => value

def span : Assignment → Span
  | mk _ _ span => span

end Assignment

/-- The span of an expression. -/
def Expression.span : Expression → Span
  | atom _ span => span
  | array _ span => span
  | dictionary _ span => span
  | function routine => routine.span
  | negate _ span => span
  | binary _ _ _ span => span
  | call _ _ span => span
  | property _ _ span => span

/-- The span of a statement. -/
def Statement.span : Statement → Span
  | declaration _ _ span => span
  | assignment a => a.span
  | expression e => e.span
  | block _ span => span
  | whileLoop _ _ span => span
  | countLoop _ _ _ _ _ span => span
  | eachLoop _ _ _ _ span => span
  | function routine => routine.span
  | conditional _ _ span => span
  | breakLoop span => span
  | continueLoop span => span
  | returnValues _ span => span

end Roteiro
