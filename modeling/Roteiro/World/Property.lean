import Roteiro.Value.Key
import Roteiro.World.Basic

/-!
Properties of values. The methods of a collection hide entries of the same name; a property that is
missing reads as null, and writing null takes a property out.
-/

namespace Roteiro.World

/-- The fault of a key that names no position of an array. -/
def indexFault : RuntimeFault :=
  .invalidArgument "indice" "a non-negative whole Number"

/-- The position that a value names, or a fault. -/
def position (key : Value) : Except RuntimeFault Nat :=
  match key.index? with
  | some index => .ok index
  | none => .error indexFault

/-- Writes an item of an array. -/
def writeItem (a : Address) (index : Nat) (value : Value) : Effect Unit :=
  fun w =>
    match (w.heap.items a).write index value with
    | .ok items => (.ok (), { w with heap := w.heap.setItems a items })
    | .error fault => (.error fault, w)

/-- Appends an item to an array. -/
def pushItem (a : Address) (value : Value) (w : World) : World :=
  { w with heap := w.heap.setItems a ((w.heap.items a).push value) }

/-- Takes an item out of an array. -/
def removeItem (a : Address) (index : Nat) (w : World) : Value × World :=
  let items := w.heap.items a
  (items.item index, { w with heap := w.heap.setItems a (items.removeAt index) })

/-- Writes an entry of a dictionary. -/
def writeEntry (a : Address) (key : String) (value : Value) (w : World) : World :=
  { w with heap := w.heap.setEntries a ((w.heap.entries a).set key value) }

/-- Reads a property. -/
def property (object key : Value) : Effect Value :=
  fun w =>
    match object with
    | .array a =>
      match key.string?.bind ArrayMethod.ofName? with
      | some method =>
        let (f, w) := w.newBuiltin (.array a method)
        (.ok f, w)
      | none =>
        match key.index? with
        | some index => (.ok ((w.heap.items a).item index), w)
        | none => (.ok .null, w)
    | .dictionary a =>
      match key.string?.bind DictionaryMethod.ofName? with
      | some method =>
        let (f, w) := w.newBuiltin (.dictionary a method)
        (.ok f, w)
      | none => (.ok ((w.heap.entries a).get (w.heap.key key)), w)
    | .string _ | .function _ _ | .native _ _ => (.ok .null, w)
    | v => (.error (.notIndexable v.type), w)

/-- Writes a property. -/
def setProperty (object key value : Value) : Effect Unit :=
  fun w =>
    match object with
    | .array a =>
      match position key with
      | .ok index => w.writeItem a index value
      | .error fault => (.error fault, w)
    | .dictionary a => (.ok (), w.writeEntry a (w.heap.key key) value)
    | v => (.error (.notIndexable v.type), w)

end Roteiro.World
