import Roteiro.Value.Heap

/-!
Values as text. Collections are written with their contents; where a collection stands inside
itself it is written as an ellipsis, so the text of every value is finite.
-/

namespace Roteiro

open Decimal Text

namespace Heap

/-- The text of a value inside the collections of `path`, which are being written already. Each
collection entered is new to the path, so `fuel` need only reach the number of collections. -/
def textWithin (h : Heap) : Nat → List Address → Value → String
  | _, _, .null => "nulo"
  | _, _, .number v => Layout.plain.text v
  | _, _, .boolean v => boolText v
  | _, _, .string v => v
  | _, _, .function _ closure => "<função " ++ closure.name ++ ">"
  | _, _, .native _ builtin => "<função nativa " ++ builtin.name ++ ">"
  | 0, _, .array _ => "[...]"
  | 0, _, .dictionary _ => "\x7b...\x7d"
  | fuel + 1, path, .array a =>
    if a ∈ path then "[...]"
    else
      "[" ++ commaSeparated ((h.items a).toList.map (h.textWithin fuel (a :: path))) ++ "]"
  | fuel + 1, path, .dictionary a =>
    if a ∈ path then "\x7b...\x7d"
    else
      let d := h.entries a
      "\x7b" ++ commaSeparated (d.keys.map fun key =>
        "[\"" ++ key ++ "\"] = " ++ h.textWithin fuel (a :: path) (d.get key)) ++ "\x7d"

/-- The text of a value. -/
def text (h : Heap) (v : Value) : String :=
  h.textWithin (h.size + 1) [] v

/-- The text of a value with its type around it; null stands alone and strings are in quotes. -/
def verboseText (h : Heap) : Value → String
  | .null => "Null"
  | .string v => "String(\"" ++ v ++ "\")"
  | .function _ closure => "Function(" ++ closure.name ++ ")"
  | .native _ builtin => "NativeFunction(" ++ builtin.name ++ ")"
  | v => v.type.text ++ "(" ++ h.text v ++ ")"

end Heap

/-- A value as it can be shown without its world. -/
structure Shown where
  type : ValueType
  text : String
  verbose : String
  deriving Repr, DecidableEq

/-- Shows a value. -/
def Heap.shown (h : Heap) (v : Value) : Shown :=
  ⟨v.type, h.text v, h.verboseText v⟩

end Roteiro
