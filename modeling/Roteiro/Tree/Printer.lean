import Roteiro.Tree.Basic

/-!
Trees as text. An expression is written out in full, with parentheses around every binary operation;
a statement is written as its first line, and a routine as its heading. The outline of a program
shows the statements inside bodies, indented.
-/

namespace Roteiro

open Decimal Text

/-- The symbol or word of an operator. -/
def Operator.text : Operator → String
  | and => "e"
  | or => "ou"
  | equal => "=="
  | notEqual => "!="
  | greater => ">"
  | greaterEqual => ">="
  | less => "<"
  | lessEqual => "<="
  | add => "+"
  | subtract => "-"
  | multiply => "*"
  | divide => "/"
  | modulo => "%"

/-- The word for a truth value. -/
def boolText (b : Bool) : String :=
  if b then "verdadeiro" else "falso"

/-- The text of a leaf; strings stand in quotes, unescaped. -/
def Atom.text : Atom → String
  | null => "nulo"
  | number v => Layout.plain.text v
  | string v => "\"" ++ v ++ "\""
  | boolean v => boolText v
  | identifier name => name.text

/-- The heading of a routine. -/
def Routine.text (r : Routine) : String :=
  let name := match r.name with
    | some name => " " ++ name.text
    | none => ""
  "funcao" ++ name ++ "(" ++ commaSeparated (r.parameters.map Ident.text) ++ ")"

mutual

/-- The text of an expression. -/
def Expression.text : Expression → String
  | .atom a _ => a.text
  | .array items _ => "[" ++ commaSeparated (Expression.textAll items) ++ "]"
  | .dictionary entries _ => "\x7b" ++ commaSeparated (Entry.textAll entries) ++ "\x7d"
  | .function routine => routine.text
  | .negate operand _ => "negar " ++ operand.text
  | .binary op left right _ => "(" ++ left.text ++ " " ++ op.text ++ " " ++ right.text ++ ")"
  | .call callee arguments _ =>
    callee.text ++ "(" ++ commaSeparated (Expression.textAll arguments) ++ ")"
  | .property object (.atom (.string name) _) _ => object.text ++ "." ++ name
  | .property object key _ => object.text ++ "[" ++ key.text ++ "]"

/-- The texts of the expressions of a list. -/
def Expression.textAll : List Expression → List String
  | [] => []
  | e :: es => e.text :: Expression.textAll es

/-- The text of an entry of a dictionary literal. -/
def Entry.text : Entry → String
  | .mk (.name name) value => name.text ++ " = " ++ value.text
  | .mk (.computed key) value => "[" ++ key.text ++ "] = " ++ value.text

/-- The texts of the entries of a list. -/
def Entry.textAll : List Entry → List String
  | [] => []
  | e :: es => e.text :: Entry.textAll es

end

/-- The text of a target; a property is always written with brackets. -/
def Target.text : Target → String
  | .name ident => ident.text
  | .property object key => object.text ++ "[" ++ key.text ++ "]"

/-- The text of an assignment. -/
def Assignment.text (a : Assignment) : String :=
  a.target.text ++ " = " ++ a.value.text

/-- A word and the text of an optional part, or nothing. -/
def optionalText (word : String) (part : Option String) : String :=
  match part with
  | some text => " " ++ word ++ " " ++ text
  | none => ""

/-- The first line of a statement. -/
def Statement.text : Statement → String
  | declaration name value _ => "declarar " ++ name.text ++ " = " ++ value.text
  | assignment a => a.text
  | expression e => e.text
  | block _ _ => "bloco"
  | whileLoop condition _ _ => "enquanto " ++ condition.text
  | countLoop counter first limit step _ _ =>
    "para " ++ counter.text ++ optionalText "de" (first.map Expression.text)
      ++ optionalText "ate" (limit.map Expression.text)
      ++ optionalText "opere" (step.map Assignment.text)
  | eachLoop key value collection _ _ =>
    "para cada " ++ key.text ++ ", " ++ value.text ++ " em " ++ collection.text
  | function routine => routine.text
  | conditional (.mk condition _ :: _) _ _ => "se " ++ condition.text
  | conditional [] _ _ => "se"
  | breakLoop _ => "parar"
  | continueLoop _ => "continuar"
  | returnValues values _ =>
    if values.isEmpty then "retorna"
    else "retorna " ++ commaSeparated (values.map Expression.text)

/-- The text of a program. -/
def Program.text (_ : Program) : String :=
  "programa"

/-! ### outlines -/

/-- A line of an outline at the given depth. -/
def outlineLine (depth : Nat) (text : String) : String :=
  String.join (List.replicate depth "  ") ++ text ++ "\n"

/-- A heading, the outline of the statements under it, and the closing word. -/
def outlineBlock (depth : Nat) (heading inner : String) : String :=
  outlineLine depth heading ++ inner ++ outlineLine depth "fim"

mutual

/-- The outline of a statement. -/
def Statement.outline (depth : Nat) : Statement → String
  | s@(.block body _) => outlineBlock depth s.text (Statement.outlineAll (depth + 1) body)
  | s@(.whileLoop _ body _) => outlineBlock depth s.text (Statement.outlineAll (depth + 1) body)
  | s@(.countLoop _ _ _ _ body _) =>
    outlineBlock depth s.text (Statement.outlineAll (depth + 1) body)
  | s@(.eachLoop _ _ _ body _) => outlineBlock depth s.text (Statement.outlineAll (depth + 1) body)
  | .function routine => routine.outline depth
  | .conditional branches otherwise _ =>
    Branch.outlineAll depth "se" branches ++
      match otherwise with
      | some body => outlineBlock depth "senao faca" (Statement.outlineAll (depth + 1) body)
      | none => ""
  | s => outlineLine depth s.text

/-- The outlines of a list of statements. -/
def Statement.outlineAll (depth : Nat) : List Statement → String
  | [] => ""
  | s :: ss => s.outline depth ++ Statement.outlineAll depth ss

/-- The outline of a routine. -/
def Routine.outline (depth : Nat) : Routine → String
  | r@(.mk _ _ body _) => outlineBlock depth r.text (Statement.outlineAll (depth + 1) body)

/-- The outline of a branch under its word. -/
def Branch.outline (depth : Nat) (word : String) : Branch → String
  | .mk condition body =>
    outlineBlock depth (word ++ " " ++ condition.text ++ " faca")
      (Statement.outlineAll (depth + 1) body)

/-- The outlines of branches; those after the first are introduced by another word. -/
def Branch.outlineAll (depth : Nat) (word : String) : List Branch → String
  | [] => ""
  | b :: bs => b.outline depth word ++ Branch.outlineAll depth "caso" bs

end

/-- The outline of a program. -/
def Program.outline (p : Program) : String :=
  Statement.outlineAll 0 p.statements

end Roteiro
