import Roteiro.Decimal.Remainder
import Roteiro.Value.Basic

/-!
The operators on values. Arithmetic and order are defined for numbers, sums and order also for
strings, order also for truth values; equality is defined for all values.
-/

namespace Roteiro

open Decimal

namespace Value

/-- The error of an operator that is not defined for its operands. -/
def unsupported {α : Type} (op : Operator) (a b : Value) : Except RuntimeFault α :=
  .error (.unsupportedOperator op a.type b.type)

/-- The sum: numbers are added, and a string is joined with a string or the text of a number. -/
def add : Value → Value → Except RuntimeFault Value
  | number a, number b => .ok (number (a + b))
  | number a, string b => .ok (string (Layout.plain.text a ++ b))
  | string a, string b => .ok (string (a ++ b))
  | string a, number b => .ok (string (a ++ Layout.plain.text b))
  | a, b => unsupported .add a b

/-- An operation on two numbers. -/
def numeric (op : Operator) (f : Float → Float → Float) : Value → Value → Except RuntimeFault Value
  | number a, number b => .ok (number (f a b))
  | a, b => unsupported op a b

/-- Negation: of a number its opposite, of a truth value the other one. -/
def negate : Value → Except RuntimeFault Value
  | number v => .ok (number (-v))
  | boolean v => .ok (boolean (!v))
  | v => .error (.unsupportedNegation v.type)

/-- Equality. Values of different types are unequal; collections and functions are equal only to
themselves. -/
def equals : Value → Value → Bool
  | null, null => true
  | number a, number b => a == b
  | boolean a, boolean b => a == b
  | string a, string b => a == b
  | array a, array b => a == b
  | dictionary a, dictionary b => a == b
  | function a _, function b _ => a == b
  | native a _, native b _ => a == b
  | _, _ => false

/-- The order of two numbers; there is none if one of them is not a number. -/
def orderNumbers (a b : Float) : Option Ordering :=
  if a < b then some .lt
  else if a == b then some .eq
  else if b < a then some .gt
  else none

/-- The order of two truth values: false comes first. -/
def orderBooleans : Bool → Bool → Ordering
  | false, true => .lt
  | true, false => .gt
  | _, _ => .eq

/-- The order of two strings, by their characters. -/
def orderStrings (a b : String) : Ordering :=
  if a < b then .lt else if a = b then .eq else .gt

/-- The order of two values of one ordered type. -/
def order (op : Operator) : Value → Value → Except RuntimeFault (Option Ordering)
  | number a, number b => .ok (orderNumbers a b)
  | boolean a, boolean b => .ok (some (orderBooleans a b))
  | string a, string b => .ok (some (orderStrings a b))
  | a, b => unsupported op a b

/-- Whether the order of two values is one of those listed. -/
def compareBy (op : Operator) (accepted : List Ordering) (a b : Value) :
    Except RuntimeFault Bool :=
  (order op a b).map fun o => o.any (accepted.contains ·)

def greater : Value → Value → Except RuntimeFault Bool := compareBy .greater [.gt]

def greaterEqual : Value → Value → Except RuntimeFault Bool := compareBy .greaterEqual [.gt, .eq]

def less : Value → Value → Except RuntimeFault Bool := compareBy .less [.lt]

def lessEqual : Value → Value → Except RuntimeFault Bool := compareBy .lessEqual [.lt, .eq]

/-- A logical connective; both operands must be truth values. -/
def logical (f : Bool → Bool → Bool) (a b : Value) : Except RuntimeFault Value := do
  let x ← a.truth
  let y ← b.truth
  pure (boolean (f x y))

/-- The value of a binary operator. -/
def apply : Operator → Value → Value → Except RuntimeFault Value
  | .and, a, b => logical (· && ·) a b
  | .or, a, b => logical (· || ·) a b
  | .equal, a, b => .ok (boolean (equals a b))
  | .notEqual, a, b => .ok (boolean !(equals a b))
  | .greater, a, b => (greater a b).map boolean
  | .greaterEqual, a, b => (greaterEqual a b).map boolean
  | .less, a, b => (less a b).map boolean
  | .lessEqual, a, b => (lessEqual a b).map boolean
  | .add, a, b => add a b
  | .subtract, a, b => numeric .subtract (· - ·) a b
  | .multiply, a, b => numeric .multiply (· * ·) a b
  | .divide, a, b => numeric .divide (· / ·) a b
  | .modulo, a, b => numeric .modulo remainder a b

end Value

end Roteiro
