import Roteiro.Value.Error

/-!
Values. Numbers, truth values and strings are plain data; arrays and dictionaries live in the heap
and are known by their addresses; functions carry an identity, since two functions are equal only
if one evaluation made both.
-/

namespace Roteiro

/-- The place of a collection in the heap. -/
abbrev Address := Nat

/-- The place of a context among the contexts of a world. -/
abbrev ContextId := Nat

/-- What makes a function equal to itself alone. -/
abbrev Identity := Nat

/-- The functions of the `math` library that depend on their arguments alone. -/
inductive MathFunction where
  | absolute
  | sine
  | cosine
  | tangent
  | power
  | squareRoot
  | ceiling
  | floor
  deriving Repr, DecidableEq

/-- The functions of the `console` library. -/
inductive ConsoleFunction where
  | write
  | read
  | clear
  deriving Repr, DecidableEq

/-- The methods of arrays. -/
inductive ArrayMethod where
  | get
  | set
  | push
  | remove
  | length
  deriving Repr, DecidableEq

/-- The methods of dictionaries. -/
inductive DictionaryMethod where
  | get
  | set
  | length
  deriving Repr, DecidableEq

/-- The functions that are not written in the script. A method is bound to its collection. -/
inductive Builtin where
  | math (f : MathFunction)
  | random
  | console (f : ConsoleFunction)
  | sleep
  | array (address : Address) (method : ArrayMethod)
  | dictionary (address : Address) (method : DictionaryMethod)
  deriving Repr, DecidableEq

/-- A routine and the context it was made in. -/
structure Closure where
  routine : Routine
  context : ContextId

/-- A value. -/
inductive Value where
  | null
  | number (value : Float)
  | boolean (value : Bool)
  | string (value : String)
  | array (address : Address)
  | dictionary (address : Address)
  | function (id : Identity) (closure : Closure)
  | native (id : Identity) (builtin : Builtin)

instance : Inhabited Value :=
  ⟨.null⟩

/-! ### names -/

/-- The name under which the library holds a function. -/
def MathFunction.name : MathFunction → String
  | absolute => "absoluto"
  | sine => "seno"
  | cosine => "cosseno"
  | tangent => "tangente"
  | power => "potencia"
  | squareRoot => "raiz"
  | ceiling => "teto"
  | floor => "chao"

/-- All of these functions, in the order of the library. -/
def MathFunction.all : List MathFunction :=
  [.absolute, .sine, .cosine, .tangent, .power, .squareRoot, .ceiling, .floor]

/-- The name under which the library holds a function. -/
def ConsoleFunction.name : ConsoleFunction → String
  | write => "escreva"
  | read => "leia"
  | clear => "limpa"

/-- All functions of the library, in its order. -/
def ConsoleFunction.all : List ConsoleFunction :=
  [.write, .read, .clear]

/-- The name of a method. -/
def ArrayMethod.name : ArrayMethod → String
  | get => "pega"
  | set => "seta"
  | push => "adiciona"
  | remove => "remove"
  | length => "tamanho"

/-- The method of a name. -/
def ArrayMethod.ofName? : String → Option ArrayMethod
  | "pega" => some get
  | "seta" => some set
  | "adiciona" => some push
  | "remove" => some remove
  | "tamanho" => some length
  | _ => none

/-- The name of a method. -/
def DictionaryMethod.name : DictionaryMethod → String
  | get => "pega"
  | set => "seta"
  | length => "tamanho"

/-- The method of a name. -/
def DictionaryMethod.ofName? : String → Option DictionaryMethod
  | "pega" => some get
  | "seta" => some set
  | "tamanho" => some length
  | _ => none

/-- The name of a built-in function. -/
def Builtin.name : Builtin → String
  | math f => f.name
  | random => "aleatorio"
  | console f => f.name
  | sleep => "aguarde"
  | array _ method => method.name
  | dictionary _ method => method.name

/-- The name of a function, or the word for those without one. -/
def Closure.name (c : Closure) : String :=
  match c.routine.name with
  | some name => name.text
  | none => "anonima"

/-! ### types and parts -/

namespace Value

/-- The type of a value. -/
def type : Value → ValueType
  | null => .null
  | number _ => .number
  | boolean _ => .boolean
  | string _ => .string
  | array _ => .array
  | dictionary _ => .dictionary
  | function _ _ => .function
  | native _ _ => .native

/-- Whether a value is null. -/
def isNull : Value → Bool
  | null => true
  | _ => false

/-- The number that a value is. -/
def number? : Value → Option Float
  | number v => some v
  | _ => none

/-- The string that a value is. -/
def string? : Value → Option String
  | string v => some v
  | _ => none

/-- The truth of a value; only truth values have one. -/
def truth : Value → Except RuntimeFault Bool
  | boolean v => .ok v
  | v => .error (.nonBoolean v.type)

end Value

end Roteiro
