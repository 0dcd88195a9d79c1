/-!
The notation of structural dumps: records with named fields, constructors with arguments, lists
and optional parts. A dump shows how a value is built, where the ordinary text of a value shows
what it means.
-/

namespace Roteiro.Text

/-- The items with `, ` between them. -/
def commaSeparated (items : List String) : String :=
  ", ".intercalate items

/-- A record: its name, and its fields in braces. -/
def dumpRecord (name : String) (fields : List (String × String)) : String :=
  name ++ " \x7b " ++ commaSeparated (fields.map fun f => f.1 ++ ": " ++ f.2) ++ " \x7d"

/-- A constructor applied to arguments. -/
def dumpVariant (name : String) (arguments : List String) : String :=
  name ++ "(" ++ commaSeparated arguments ++ ")"

/-- A list in square brackets. -/
def dumpList (items : List String) : String :=
  "[" ++ commaSeparated items ++ "]"

/-- An optional part. -/
def dumpOption : Option String → String
  | some s => dumpVariant "Some" [s]
  | none => "None"

end Roteiro.Text
