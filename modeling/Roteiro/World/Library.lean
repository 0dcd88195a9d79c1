import Roteiro.Text.Dump
import Roteiro.World.Property

/-!
The built-in library: mathematics, the console, waiting, and the methods of collections.
-/

namespace Roteiro

open Decimal Text

/-! ### arguments -/

/-- The argument at a position, null if it is missing. -/
def argument (arguments : List Value) (position : Nat) : Value :=
  arguments[position]?.getD .null

/-- The argument at a position, which must be a number; `name` says which argument it is. -/
def numberArgument (arguments : List Value) (position : Nat) (name : String) :
    Except RuntimeFault Float :=
  match arguments[position]?.bind Value.number? with
  | some v => .ok v
  | none => .error (.invalidArgument name "a Number")

/-! ### mathematics -/

/-- Whether a number is neither infinite nor undefined. -/
def isFinite (x : Float) : Bool :=
  match decode x with
  | .finite _ _ => true
  | _ => false

/-- The bounds of a random number: by default from zero to one. -/
def randomBounds (arguments : List Value) : Except RuntimeFault (Float × Float) :=
  match arguments with
  | [] => .ok (0, 1)
  | [_] => do
    let high ← numberArgument arguments 0 "max"
    pure (0, high)
  | _ => do
    let low ← numberArgument arguments 0 "min"
    let high ← numberArgument arguments 1 "max"
    pure (low, high)

/-- The bounds of a random number, which must be finite and in order. -/
def randomRange (arguments : List Value) : Except RuntimeFault (Float × Float) := do
  let (low, high) ← randomBounds arguments
  if low < high && isFinite low && isFinite high then pure (low, high)
  else .error (.invalidArgument "max" "a finite Number above the minimum")

/-- The value of a mathematical function. -/
def MathFunction.value (f : MathFunction) (arguments : List Value) : Except RuntimeFault Float := do
  match f with
  | power =>
    let base ← numberArgument arguments 0 "base"
    let exponent ← numberArgument arguments 1 "expoente"
    pure (base.pow exponent)
  | absolute => pure (← numberArgument arguments 0 "valor").abs
  | sine => pure (← numberArgument arguments 0 "valor").sin
  | cosine => pure (← numberArgument arguments 0 "valor").cos
  | tangent => pure (← numberArgument arguments 0 "valor").tan
  | squareRoot => pure (← numberArgument arguments 0 "valor").sqrt
  | ceiling => pure (← numberArgument arguments 0 "valor").ceil
  | floor => pure (← numberArgument arguments 0 "valor").floor

/-- A random number between the bounds that the arguments give. -/
def World.random (arguments : List Value) : Effect Value :=
  fun w =>
    match randomRange arguments with
    | .error fault => (.error fault, w)
    | .ok (low, high) =>
      let seed := w.dice.next w.seed
      (.ok (.number (w.dice.draw seed low high)), { w with seed })

/-! ### console and waiting -/

/-- Calls a function of the console. -/
def World.callConsole (f : ConsoleFunction) (arguments : List Value) (w : World) : Value × World :=
  match f with
  | .write =>
    let line := " ".intercalate (arguments.map w.heap.text)
    (.null, { w with terminal := w.terminal.putLine line })
  | .read =>
    let prompt := match arguments with
      | first :: _ => w.heap.text first
      | [] => ""
    let (line, terminal) := w.terminal.readLine prompt
    let value := match line with
      | some line => Value.string line
      | none => .null
    (value, { w with terminal })
  | .clear => (.null, { w with terminal := w.terminal.clear })

/-- Whether a number of seconds can be waited: it is not negative and below two to the power of
sixty-four. -/
def canWait (seconds : Float) : Bool :=
  0 ≤ seconds && seconds < 18446744073709551616

/-- Waits for as many seconds as the first argument says. -/
def World.sleep (arguments : List Value) : Effect Value :=
  fun w =>
    match numberArgument arguments 0 "segundos" with
    | .error fault => (.error fault, w)
    | .ok seconds =>
      if canWait seconds then (.ok .null, { w with terminal := w.terminal.wait seconds })
      else
        (.error (.invalidArgument "segundos" "a non-negative Number of representable seconds"), w)

/-! ### methods -/

/-- Calls a method of an array. -/
def World.callArray (a : Address) (method : ArrayMethod) (arguments : List Value) : Effect Value :=
  fun w =>
    match method with
    | .push => (.ok .null, w.pushItem a (argument arguments 0))
    | .length => (.ok (.number (Float.ofNat (w.heap.items a).size)), w)
    | .get =>
      match World.position (argument arguments 0) with
      | .error fault => (.error fault, w)
      | .ok index => (.ok ((w.heap.items a).item index), w)
    | .set =>
      match World.position (argument arguments 0) with
      | .error fault => (.error fault, w)
      | .ok index =>
        let (result, w) := w.writeItem a index (argument arguments 1)
        (result.map fun _ => .null, w)
    | .remove =>
      match World.position (argument arguments 0) with
      | .error fault => (.error fault, w)
      | .ok index =>
        let (value, w) := w.removeItem a index
        (.ok value, w)

/-- Calls a method of a dictionary. -/
def World.callDictionary (a : Address) (method : DictionaryMethod) (arguments : List Value)
    (w : World) : Value × World :=
  match method with
  | .get => ((w.heap.entries a).get (w.heap.key (argument arguments 0)), w)
  | .set => (.null, w.writeEntry a (w.heap.key (argument arguments 0)) (argument arguments 1))
  | .length => (.number (Float.ofNat (w.heap.entries a).size), w)

/-- Whether a call asks for a random number between finite bounds whose distance is not finite. No
number can be drawn between them, and the script breaks off at the call. -/
def Builtin.breaksOff (b : Builtin) (arguments : List Value) : Bool :=
  match b, randomRange arguments with
  | .random, .ok (low, high) => !isFinite (high - low)
  | _, _ => false

/-- Calls a built-in function. -/
def World.callBuiltin (b : Builtin) (arguments : List Value) : Effect Value :=
  fun w =>
    match b with
    | .math f => ((f.value arguments).map Value.number, w)
    | .random => w.random arguments
    | .console f =>
      let (value, w) := w.callConsole f arguments
      (.ok value, w)
    | .sleep => w.sleep arguments
    | .array a method => w.callArray a method arguments
    | .dictionary a method =>
      let (value, w) := w.callDictionary a method arguments
      (.ok value, w)

/-! ### names of the library -/

/-- The circle constant, to the nearest double. -/
def pi : Float := 3.141592653589793

/-- A new function for each of the given ones, under its name. -/
def World.newBuiltins (builtins : List Builtin) (w : World) : List (String × Value) × World :=
  match builtins with
  | [] => ([], w)
  | b :: rest =>
    let (f, w) := w.newBuiltin b
    let (others, w) := w.newBuiltins rest
    ((b.name, f) :: others, w)

/-- A dictionary of plain entries and then built-in functions, as a local of the built-in level. -/
def World.newLibrary (name : String) (constants : List (String × Value)) (builtins : List Builtin)
    (w : World) : Local × World :=
  let (functions, w) := w.newBuiltins builtins
  let (dictionary, w) := w.newDictionary (.ofList (constants ++ functions))
  (⟨name, Context.builtinLevel, dictionary⟩, w)

/-- A new context without names. -/
def World.newRoot (w : World) : ContextId × World :=
  w.addContext .root

/-- A new context that has the library at the built-in level. -/
def World.newGlobal (w : World) : ContextId × World :=
  let (math, w) := w.newLibrary "math" [("PI", .number pi), ("TAU", .number (2 * pi))]
    (MathFunction.all.map Builtin.math ++ [.random])
  let (console, w) := w.newLibrary "console" [] (ConsoleFunction.all.map Builtin.console)
  let (sleep, w) := w.newLibrary "sleep" [] [.sleep]
  w.addContext { Context.root with locals := [sleep, console, math] }

/-- A new context inside another. -/
def World.newChild (parent : ContextId) (w : World) : ContextId × World :=
  w.addContext (.inside parent)

end Roteiro
